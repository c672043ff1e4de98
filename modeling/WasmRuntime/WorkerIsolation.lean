/-
`enter_linux_wasix_worker_isolation`: how a worker gives up what it inherited, and what it then
reports of itself.
-/
import WasmRuntime.Monitor
import WasmRuntime.SortDedup
import WasmRuntime.WorkerProtocol
import Mathlib.Data.UInt

set_option autoImplicit false

namespace WasmRuntime.Worker

open Prog SortDedup Exec

/-! ## The worker's program

One effect for each call of the system. The worker closes descriptors, lowers limits, drops
credentials and capabilities, and only then asks the system what is left. -/

/-- `Resource`, as far as the worker lowers one. -/
inductive Resource where
  | Core | Fsize | As | Nofile
  deriving DecidableEq, Repr

/-- `{:?}` of a resource. -/
def Resource.debug : Resource → String
  | .Core => "Core"
  | .Fsize => "Fsize"
  | .As => "As"
  | .Nofile => "Nofile"

/-- `ResUid` and `ResGid`. -/
structure ResId where
  real : UInt32
  effective : UInt32
  saved : UInt32

/-- The calls of the system. `fd_directory` reads `/proc/self/fd`: the descriptor of the
directory itself and the numbers found in it. `status_ids` and `status_mask` read one field of
`/proc/self/status`. -/
inductive IsolationOp where
  | getppid
  | fd_directory
  | close (descriptor : ℤ)
  | getrlimit (resource : Resource)
  | setrlimit (resource : Resource) (maximum : UInt64)
  | set_keep_capabilities
  | clear_ambient_capability_set
  | getresuid
  | getresgid
  | clear_groups
  | setresgid (group : UInt32)
  | setresuid (user : UInt32)
  | setfsgid (group : UInt32)
  | setfsuid (user : UInt32)
  | set_parent_process_death_signal
  | clear_capabilities
  | set_no_new_privs
  | set_not_dumpable
  | status_ids (field : String)
  | status_mask (field : String)
  | getgroups
  | capabilities
  | no_new_privs
  | dumpable

/-- Their answers. The three masks of `capabilities` are effective, permitted and inheritable. -/
@[reducible] def IsolationOp.Answer : IsolationOp → Type
  | .getppid => Option ℕ
  | .fd_directory => Except String (ℤ × List ℤ)
  | .close _ => Unit
  | .getrlimit _ => Option UInt64 × Option UInt64
  | .setrlimit _ _ | .set_keep_capabilities | .clear_ambient_capability_set | .clear_groups
  | .setresgid _ | .setresuid _ | .set_parent_process_death_signal | .clear_capabilities
  | .set_no_new_privs | .set_not_dumpable => Except String Unit
  | .getresuid | .getresgid => Except String ResId
  | .setfsgid _ | .setfsuid _ => UInt32
  | .status_ids _ => Except String (Vector UInt32 4)
  | .status_mask _ => Except String UInt64
  | .getgroups => Except String (List UInt32)
  | .capabilities => Except String (UInt64 × UInt64 × UInt64)
  | .no_new_privs | .dumpable => Except String Bool

/-- A program of the worker before it is ready. -/
abbrev IsolationM := Fallible IsolationOp IsolationOp.Answer String

/-- One call that cannot fail. -/
def call (op : IsolationOp) : IsolationM op.Answer := Fallible.run (perform op)

/-- One call, and the text of its failure. -/
def checked {α : Type} (message : String)
    (p : Prog IsolationOp IsolationOp.Answer (Except String α)) :
    IsolationM α := Fallible.orElse (fun error => message ++ error) p

def open_worker_descriptors : IsolationM (List ℤ) := do
  let (directory, names) ← Fallible.orElse id (perform IsolationOp.fd_directory)
  let descriptors := names.filter fun descriptor =>
    decide (2 < descriptor) && descriptor != directory
  pure (dedup (sort_by_key id descriptors))

/-- The loop over the inherited descriptors. -/
def close_all : List ℤ → IsolationM Unit
  | [] => pure ()
  | descriptor :: rest => do
      call (.close descriptor)
      close_all rest

def close_inherited_worker_descriptors : IsolationM UInt32 := do
  let inherited ← open_worker_descriptors
  Fallible.reject (decide (u32_max < inherited.length))
    "inherited worker descriptor count exceeds the protocol"
  close_all inherited
  let remaining ← open_worker_descriptors
  Fallible.reject (!remaining.isEmpty)
    ("worker retained inherited descriptors [" ++ ", ".intercalate (remaining.map Int.repr) ++ "]")
  pure (UInt32.ofNat inherited.length)

def lower_worker_limit (resource : Resource) (profile_maximum : UInt64) :
    IsolationM (Vector UInt64 2) := do
  let inherited ← call (.getrlimit resource)
  let maximum := (inherited.1.toList ++ inherited.2.toList).foldl min profile_maximum
  checked ("failed to lower worker " ++ resource.debug ++ " limit: ")
    (perform (IsolationOp.setrlimit resource maximum))
  let installed ← call (.getrlimit resource)
  let current ← Fallible.ok_or
    ("worker " ++ resource.debug ++ " soft limit remained unbounded") installed.1
  let hard ← Fallible.ok_or
    ("worker " ++ resource.debug ++ " hard limit remained unbounded") installed.2
  pure ((Vector.replicate 2 current).set 1 hard Nat.one_lt_two)

/-- The signal of the parent's death is armed, and the parent looked for after that. -/
def arm (message text : String) (expected_parent : ℕ) : IsolationM Unit := do
  checked message (perform IsolationOp.set_parent_process_death_signal)
  let parent ← call .getppid
  Fallible.reject (parent != some expected_parent) text

def rearm_worker_parent_death : ℕ → IsolationM Unit :=
  arm "failed to re-arm worker parent-death protection: "
    "WASIX worker parent exited during isolation setup"

/-- The credentials are dropped if one of them is root's. -/
def drop_credentials (users groups : ResId) : IsolationM Unit :=
  if [users.real, users.effective, users.saved, groups.real, groups.effective,
      groups.saved].contains 0 then do
    checked "failed to clear worker supplementary groups: " (perform IsolationOp.clear_groups)
    checked "failed to drop worker group credentials: " (perform (IsolationOp.setresgid 65534))
    checked "failed to drop worker user credentials: " (perform (IsolationOp.setresuid 65534))
  else pure ()

/-! ## The report

It is made of those last answers and of the limits as they were installed. Before it is sent the
worker holds it to the check that the parent will make, with its own groups in the place of the
allowlist. -/

/-- What the worker has asked the system when it makes its report. -/
structure Observation where
  user_ids : Vector UInt32 4
  group_ids : Vector UInt32 4
  groups : List UInt32
  capabilities : UInt64 × UInt64 × UInt64
  ambient : UInt64
  no_new_privileges : Bool
  dumpable : Bool
  core_file_limits : Vector UInt64 2
  file_size_limits : Vector UInt64 2
  address_space_limits : Vector UInt64 2
  open_file_limits : Vector UInt64 2
  closed_inherited_descriptor_count : UInt32

/-- The four masks, in the order of the report. -/
def Observation.capability_masks (o : Observation) : Vector UInt64 4 :=
  #v[o.capabilities.1, o.capabilities.2.1, o.capabilities.2.2, o.ambient]

/-- The `WasixWorkerIsolation` that `enter_linux_wasix_worker_isolation` makes. -/
def Observation.isolation (o : Observation) : WasixWorkerIsolation where
  profile_version := WASIX_WORKER_ISOLATION_PROFILE_VERSION
  user_ids := o.user_ids
  group_ids := o.group_ids
  supplementary_group_ids := sort_by_key UInt32.toNat o.groups
  has_root_supplementary_group := (sort_by_key UInt32.toNat o.groups).any (· == 0)
  no_new_privileges := o.no_new_privileges
  dumpable := o.dumpable
  capability_masks := o.capability_masks
  core_file_limits := o.core_file_limits
  file_size_limits := o.file_size_limits
  address_space_limits := o.address_space_limits
  open_file_limits := o.open_file_limits
  closed_inherited_descriptor_count := o.closed_inherited_descriptor_count

theorem WasixWorkerIsolation.validate_returns (self : WasixWorkerIsolation)
    (allowed_groups : List UInt32) : (self.validate allowed_groups).Returns := by
  unfold WasixWorkerIsolation.validate validate_limits
  repeat' refine returns_bind (returns_reject _ _) fun _ _ => ?_
  exact returns_reject _ _

/-- The worker's own check of its report. -/
def Observation.verified (W : Env) (o : Observation) : Except String WasixWorkerIsolation :=
  match (o.isolation.validate o.isolation.supplementary_group_ids).toExcept
      (o.isolation.validate_returns _) with
  | .ok _ => .ok o.isolation
  | .error error => .error ("worker isolation verification failed: " ++ W.display_error error)

/-- The first half: what is given up before the report is made. -/
def give_up_inherited (expected_parent : ℕ) : IsolationM Unit := do
  checked "failed to disable retained worker capabilities: "
    (perform IsolationOp.set_keep_capabilities)
  checked "failed to clear ambient worker capabilities: "
    (perform IsolationOp.clear_ambient_capability_set)
  let initial_users ← checked "failed to inspect initial worker user IDs: "
    (perform IsolationOp.getresuid)
  let initial_groups ← checked "failed to inspect initial worker group IDs: "
    (perform IsolationOp.getresgid)
  drop_credentials initial_users initial_groups
  let final_users ← checked "failed to inspect final worker user IDs: "
    (perform IsolationOp.getresuid)
  let final_groups ← checked "failed to inspect final worker group IDs: "
    (perform IsolationOp.getresgid)
  let _ ← call (.setfsgid final_groups.effective)
  let _ ← call (.setfsuid final_users.effective)
  rearm_worker_parent_death expected_parent
  checked "failed to clear worker capabilities: " (perform IsolationOp.clear_capabilities)
  checked "failed to set worker no-new-privileges: " (perform IsolationOp.set_no_new_privs)
  checked "failed to disable worker dumpability: " (perform IsolationOp.set_not_dumpable)

def enter_linux_wasix_worker_isolation (W : Env) : IsolationM WasixWorkerIsolation := do
  let parent ← call .getppid
  let expected_parent ← Fallible.ok_or "WASIX worker has no live parent process" parent
  let closed_inherited_descriptor_count ← close_inherited_worker_descriptors
  let core_file_limits ← lower_worker_limit .Core 0
  let file_size_limits ← lower_worker_limit .Fsize WASIX_WORKER_MAX_FILE_BYTES
  let address_space_limits ← lower_worker_limit .As WASIX_WORKER_MAX_ADDRESS_SPACE_BYTES
  let open_file_limits ← lower_worker_limit .Nofile WASIX_WORKER_MAX_OPEN_FILES
  give_up_inherited expected_parent
  let user_ids ← Fallible.orElse id (perform (IsolationOp.status_ids "Uid"))
  let group_ids ← Fallible.orElse id (perform (IsolationOp.status_ids "Gid"))
  let groups ← checked "failed to verify worker supplementary groups: "
    (perform IsolationOp.getgroups)
  let capabilities ← checked "failed to verify worker capabilities: "
    (perform IsolationOp.capabilities)
  let no_new_privileges ← checked "failed to verify worker no-new-privileges: "
    (perform IsolationOp.no_new_privs)
  let dumpable ← checked "failed to verify worker dumpability: " (perform IsolationOp.dumpable)
  let ambient ← Fallible.orElse id (perform (IsolationOp.status_mask "CapAmb"))
  Fallible.ofExcept (Observation.verified W
    { user_ids, group_ids, groups, capabilities, ambient, no_new_privileges, dumpable,
      core_file_limits, file_size_limits, address_space_limits, open_file_limits,
      closed_inherited_descriptor_count })

/-! ## The deployment's list

The supplementary groups are normalised on both sides, each in its own way. The deployment's list is
sorted and rid of repetitions; the worker's is sorted. -/

/-- `WasixWorkerConfig::with_allowed_supplementary_groups`. -/
def WasixWorkerConfig.with_allowed_supplementary_groups (self : WasixWorkerConfig)
    (groups : List UInt32) : WasixWorkerConfig :=
  { self with allowed_supplementary_groups := dedup (sort_by_key UInt32.toNat groups) }

/-! ## What the comparison decides

The parent compares the two as lists. So what it decides is whether the two have the same members
*and* the system gave no group twice. -/

/-- The report with nothing to say about groups. -/
def WasixWorkerIsolation.without_groups (self : WasixWorkerIsolation) : WasixWorkerIsolation :=
  { self with supplementary_group_ids := [], has_root_supplementary_group := false }

/-- The check on the groups is apart from the checks on the other fields. -/
theorem WasixWorkerIsolation.validate_eq_ok_iff {self : WasixWorkerIsolation}
    {allowed_groups : List UInt32} :
    self.validate allowed_groups = .ok () ↔
      self.without_groups.validate [] = .ok () ∧ self.has_root_supplementary_group = false ∧
        self.supplementary_group_ids.length ≤ WASIX_WORKER_MAX_SUPPLEMENTARY_GROUPS ∧
        self.supplementary_group_ids = allowed_groups := by
  have hnone : decide (0 > WASIX_WORKER_MAX_SUPPLEMENTARY_GROUPS) = false := by decide
  have hlen : decide (self.supplementary_group_ids.length > WASIX_WORKER_MAX_SUPPLEMENTARY_GROUPS)
      = false ↔ self.supplementary_group_ids.length ≤ WASIX_WORKER_MAX_SUPPLEMENTARY_GROUPS := by
    rw [decide_eq_false_iff_not, gt_iff_lt, not_lt]
  simp only [validate, without_groups, bind_eq_ok, reject_eq_ok, Bool.or_eq_false_iff,
    bne_eq_false_iff_eq, exists_and_left, exists_const, List.length_nil, hlen, and_true, true_and]
  constructor
  · rintro ⟨hversion, hroot, hfs, hgroup, ⟨hfew, hsame⟩, hrest⟩
    exact ⟨⟨hversion, hroot, hfs, hnone, hrest⟩, hgroup, hfew, hsame⟩
  · rintro ⟨⟨hversion, hroot, hfs, -, hrest⟩, hgroup, hfew, hsame⟩
    exact ⟨hversion, hroot, hfs, hgroup, ⟨hfew, hsame⟩, hrest⟩

theorem Observation.verified_eq_ok {W : Env} {o : Observation} {report : WasixWorkerIsolation}
    (h : o.verified W = .ok report) :
    o.isolation.validate o.isolation.supplementary_group_ids = .ok () ∧ o.isolation = report := by
  unfold Observation.verified at h
  split at h
  · rename_i hok
    rw [toExcept_eq_ok] at hok
    exact ⟨hok, Except.ok.inj h⟩
  · cases h

/-- The worker, having observed `o`, sends its report, and the parent accepts it. -/
structure Accepts (config : WasixWorkerConfig) (o : Observation) : Prop where
  reported : o.isolation.validate o.isolation.supplementary_group_ids = .ok ()
  accepted : o.isolation.validate config.allowed_supplementary_groups = .ok ()

/-- The two collections are one set of at most 64 groups, and group 0 is not in it. -/
structure SameGroups (kernel allowed : List UInt32) : Prop where
  same : ∀ group, group ∈ kernel ↔ group ∈ allowed
  rootless : 0 ∉ kernel
  few : kernel.toFinset.card ≤ WASIX_WORKER_MAX_SUPPLEMENTARY_GROUPS

theorem toNat_injective : Function.Injective UInt32.toNat := fun _ _ h => UInt32.toNat_inj.mp h

theorem Observation.rootless_iff (o : Observation) :
    o.isolation.has_root_supplementary_group = false ↔ 0 ∉ o.groups := by
  rw [← mem_sort_by_key UInt32.toNat (l := o.groups)]
  simp only [Observation.isolation, List.any_eq_false, beq_iff_eq]
  constructor
  · intro h hmem
    exact h 0 hmem rfl
  · rintro h group hmem rfl
    exact h hmem

/-- What the parent accepts, when all the other fields are as they should be. -/
theorem accepts_iff {config : WasixWorkerConfig} {allowed : List UInt32} {o : Observation}
    (hcompliant : o.isolation.without_groups.validate [] = .ok ()) :
    Accepts (config.with_allowed_supplementary_groups allowed) o ↔
      SameGroups o.groups allowed ∧ o.groups.Nodup := by
  have hlength : o.isolation.supplementary_group_ids.length = o.groups.length :=
    (sort_by_key_perm UInt32.toNat o.groups).length_eq
  -- The worker sorts and keeps repetitions; the configuration drops them.
  have hsets : o.isolation.supplementary_group_ids
      = (config.with_allowed_supplementary_groups allowed).allowed_supplementary_groups ↔
        o.groups.Nodup ∧ ∀ group, group ∈ o.groups ↔ group ∈ allowed :=
    sorted_eq_normal_iff toNat_injective
  constructor
  · rintro ⟨-, haccepted⟩
    obtain ⟨-, hroot, hfew, hlist⟩ := WasixWorkerIsolation.validate_eq_ok_iff.mp haccepted
    obtain ⟨hnodup, hsame⟩ := hsets.mp hlist
    refine ⟨⟨hsame, o.rootless_iff.mp hroot, ?_⟩, hnodup⟩
    rw [List.toFinset_card_of_nodup hnodup, ← hlength]
    exact hfew
  · rintro ⟨⟨hsame, hrootless, hfew⟩, hnodup⟩
    have hroot := o.rootless_iff.mpr hrootless
    rw [List.toFinset_card_of_nodup hnodup, ← hlength] at hfew
    have hlist := hsets.mpr ⟨hnodup, hsame⟩
    exact ⟨WasixWorkerIsolation.validate_eq_ok_iff.mpr ⟨hcompliant, hroot, hfew, rfl⟩,
      WasixWorkerIsolation.validate_eq_ok_iff.mpr ⟨hcompliant, hroot, hfew, hlist⟩⟩

/-- The comparison is one of sets as long as the system gives no group twice. The order on either
side does not matter, nor does a repetition on the deployment's. -/
theorem groups_compared_iff (config : WasixWorkerConfig) (allowed : List UInt32) (o : Observation)
    (hcompliant : o.isolation.without_groups.validate [] = .ok ()) :
    (Accepts (config.with_allowed_supplementary_groups allowed) o ↔ SameGroups o.groups allowed) ↔
      o.groups.Nodup ∨ ¬ SameGroups o.groups allowed := by
  rw [accepts_iff hcompliant]
  tauto

/-- A worker without privileges, in the groups `groups`. -/
def sampleObservation (groups : List UInt32) : Observation where
  user_ids := .replicate 4 65534
  group_ids := .replicate 4 65534
  groups := groups
  capabilities := (0, 0, 0)
  ambient := 0
  no_new_privileges := true
  dumpable := false
  core_file_limits := .replicate 2 0
  file_size_limits := .replicate 2 WASIX_WORKER_MAX_FILE_BYTES
  address_space_limits := .replicate 2 WASIX_WORKER_MAX_ADDRESS_SPACE_BYTES
  open_file_limits := .replicate 2 WASIX_WORKER_MAX_OPEN_FILES
  closed_inherited_descriptor_count := 0

/-- A deployment of such workers. -/
def sampleDeployment : WasixWorkerConfig := ⟨"/usr/libexec/wasix-worker", 5000000000, [], false⟩

theorem sampleObservation_compliant (groups : List UInt32) :
    (sampleObservation groups).isolation.without_groups.validate [] = .ok () := by
  have hsame : (sampleObservation groups).isolation.without_groups
      = (sampleObservation []).isolation.without_groups := rfl
  rw [hsame]
  decide +kernel

/-- Groups 20 and 7 are allowed, the one named twice; the worker is in groups 7 and 20. -/
theorem groups_compared_in_any_order :
    Accepts (sampleDeployment.with_allowed_supplementary_groups [20, 7, 20])
      (sampleObservation [7, 20]) := by
  refine ((groups_compared_iff sampleDeployment [20, 7, 20] (sampleObservation [7, 20])
    (sampleObservation_compliant _)).mpr (.inl (by decide))).mpr ⟨?_, by decide, by decide⟩
  intro group
  show group ∈ [7, 20] ↔ group ∈ [20, 7, 20]
  simp only [List.mem_cons, List.not_mem_nil, or_false]
  tauto

/-- Group 7 is allowed and is the worker's only group, but the system names it twice. -/
theorem repeated_group_refused :
    SameGroups [7, 7] [7] ∧
      (sampleDeployment.with_allowed_supplementary_groups [7]).validate_common = .ok () ∧
      (sampleObservation [7, 7]).isolation.without_groups.validate [] = .ok () ∧
      ¬ Accepts (sampleDeployment.with_allowed_supplementary_groups [7])
        (sampleObservation [7, 7]) := by
  refine ⟨⟨?_, by decide, by decide⟩, by decide, sampleObservation_compliant _, ?_⟩
  · intro group
    simp only [List.mem_cons, List.not_mem_nil, or_false, or_self]
  · intro haccepts
    have hnodup := ((accepts_iff (sampleObservation_compliant _)).mp haccepts).2
    exact absurd hnodup (by decide)

/-! ## Where the report comes from

From the answers to the last questions, in every run. -/

/-- The groups that the system named last. -/
def groupsNamed : Monitor (List UInt32) IsolationOp IsolationOp.Answer where
  ok _ _ _ := True
  after groups
    | .getgroups, .ok named => named
    | _, _ => groups

/-- A call of another kind names no groups. -/
theorem orElse_quiet {α : Type} (wrap : String → String)
    {p : Prog IsolationOp IsolationOp.Answer (Except String α)}
    (hp : p.Only (· ≠ .getgroups)) (named : List UInt32) :
    groupsNamed.Upholds (fun _ _ => True) (Monitor.Post fun _ s => named = s)
      (Fallible.orElse wrap p) named := by
  have hafter : ∀ op r, op ≠ .getgroups → groupsNamed.after named op r = named := by
    intro op r hop
    cases op with
    | getgroups => exact absurd rfl hop
    | _ => rfl
  apply Monitor.Upholds.orElse
  induction p with
  | ret r =>
    cases r with
    | ok a => exact rfl
    | error e => exact trivial
  | vis op k ih =>
    refine ⟨trivial, fun r _ => ?_⟩
    rw [hafter op r hp.1]
    exact ih r (hp.2 r)

/-- What the worker returns is the report of what it observed last, and has passed its own
check. -/
theorem enter_linux_wasix_worker_isolation_reports (W : Env) (groups : List UInt32) :
    groupsNamed.Upholds (fun _ _ => True)
      (Monitor.Post fun report named => ∃ o : Observation, o.groups = named ∧
        o.isolation = report ∧ report.validate report.supplementary_group_ids = .ok ())
      (enter_linux_wasix_worker_isolation W) groups := by
  -- Nothing is asked of the history before the groups are named.
  have hany : ∀ {α : Type} (p : IsolationM α) (groups : List UInt32),
      groupsNamed.Upholds (fun _ _ => True) (Monitor.Post fun _ _ => True) p groups := by
    intro α p
    induction p with
    | ret r => cases r <;> exact fun _ => trivial
    | vis e k ih => exact fun groups => ⟨trivial, fun r _ => ih r _⟩
  have hquiet : ∀ {op : IsolationOp}, op ≠ .getgroups →
      (perform op : Prog IsolationOp IsolationOp.Answer _).Only (· ≠ .getgroups) :=
    fun hop => ⟨hop, fun _ => trivial⟩
  unfold enter_linux_wasix_worker_isolation
  refine .bindF (hany _ _) fun _ _ _ => .bindF (hany _ _) fun _ _ _ => ?_
  refine .bindF (hany _ _) fun _ _ _ => .bindF (hany _ _) fun _ _ _ => ?_
  refine .bindF (hany _ _) fun _ _ _ => .bindF (hany _ _) fun _ _ _ => ?_
  refine .bindF (hany _ _) fun _ _ _ => .bindF (hany _ _) fun _ _ _ => ?_
  refine .bindF (hany _ _) fun _ _ _ => .bindF (hany _ _) fun _ _ _ => ?_
  have hnamed : ∀ s, groupsNamed.Upholds (fun _ _ => True) (Monitor.Post fun named s => named = s)
      (checked "failed to verify worker supplementary groups: " (perform IsolationOp.getgroups))
      s := by
    refine fun s => .orElse ⟨trivial, fun r _ => ?_⟩
    cases r with
    | ok named => exact rfl
    | error e => exact trivial
  refine .bindF (hnamed _) ?_
  rintro named _ rfl
  refine .bindF (orElse_quiet _ (hquiet (by intro h; cases h)) named) ?_
  rintro _ _ rfl
  refine .bindF (orElse_quiet _ (hquiet (by intro h; cases h)) named) ?_
  rintro _ _ rfl
  refine .bindF (orElse_quiet _ (hquiet (by intro h; cases h)) named) ?_
  rintro _ _ rfl
  refine .bindF (orElse_quiet _ (hquiet (by intro h; cases h)) named) ?_
  rintro _ _ rfl
  refine Monitor.Upholds.monoF (.ofExcept _ _) ?_
  rintro report _ ⟨rfl, hverified⟩
  obtain ⟨hown, rfl⟩ := Observation.verified_eq_ok hverified
  exact ⟨_, rfl, rfl, hown⟩

end WasmRuntime.Worker
