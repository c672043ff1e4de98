/-
Several runtimes that prepare one component over one empty directory.

`publish` puts the artifact in place before its record, and `load` takes the artifact alone for a
sign that the entry is there. A runtime that looks between the two renames of another goes on to
read a record that does not exist yet, and `prepare` fails with it: nothing has gone wrong with any
file, and the component would have compiled. That is the only way.
-/
import WasmRuntime.DiskCachePublishers
import WasmRuntime.TierTransparency

set_option autoImplicit false

namespace WasmRuntime.Cache

open ByteCodec Prog Function

/-! ## What is shared

All runtimes compile the component to the same bytes, so there is one job, and they are its
publishers (`DiskCachePublishers.lean`). -/

/-- A component, what it compiles to, the cache all runtimes share but for its limit, and
the limit of each. -/
structure Shared (κ : Type) where
  E : CacheEnv
  engine : Engine κ
  disk : DiskCache
  limit : ℕ → ℕ
  source : Bytes
  prepared : PreparedComponent κ
  bytes : Bytes

namespace Shared

variable {κ : Type} (S : Shared κ)

/-- The key of the component. -/
def digest : Digest := component_digest S.E.crypto S.source

/-- The name of one of the files of its entry. -/
def file (kind : FileKind) : String := file_name S.digest S.prepared.profile kind

/-- The record of its entry. -/
def record : CacheMetadata := S.disk.metadata_of S.E S.digest S.prepared.profile S.bytes

/-- What is assumed of the parts that are not modelled: the component compiles, its
serialized form deserializes to it, and the decoder reads back its record. -/
structure Sound : Prop where
  compiles : S.engine.compile S.source = .ok (S.prepared, S.bytes)
  deserializes : S.engine.deserialize S.bytes = .ok S.prepared.component
  decodes : S.E.from_slice (Json.render S.record.to_json) = .ok S.record

/-- A cache under the shared key and identity, with its own limit. -/
structure Shares (cache : DiskCache) (limit : ℕ) : Prop where
  key : cache.config.authentication_key = S.disk.config.authentication_key
  target : cache.target = S.disk.target
  limit : cache.config.max_entry_bytes = limit

/-- All that is ever published, as a publisher of its own. -/
def job (_ : Unit) : Publisher where
  cache := { S.disk with config := { S.disk.config with max_entry_bytes := S.bytes.length } }
  pid := 0
  digest := S.digest
  profile := S.prepared.profile
  artifact := S.bytes

variable {S}

theorem job_metadata_of :
    (S.job ()).cache.metadata_of S.E S.digest S.prepared.profile S.bytes = S.record :=
  DiskCache.metadata_of_congr rfl rfl _ _ _

theorem Sound.agree (hS : S.Sound) : Agree S.E (S.job ()).cache S.job where
  key _ := rfl
  target _ := rfl
  artifact _ _ _ _ := rfl
  fits _ := le_refl _
  decodes _ := by
    show S.E.from_slice (Json.render ((S.job ()).cache.metadata_of S.E S.digest
      S.prepared.profile S.bytes).to_json) = .ok ((S.job ()).cache.metadata_of S.E S.digest
      S.prepared.profile S.bytes)
    rw [job_metadata_of]
    exact hS.decodes

theorem job_admitted : (S.job ()).Admitted := le_refl _

theorem expected_file (kind : FileKind) :
    Expected S.E S.job (S.file kind) ((S.job ()).contents S.E kind) :=
  ⟨(), kind, job_admitted, rfl, rfl⟩

theorem contents_metadata : (S.job ()).contents S.E .metadata = Json.render S.record.to_json := by
  rw [Publisher.contents, DiskCache.file_contents]
  exact congrArg (fun md : CacheMetadata => Json.render md.to_json) job_metadata_of

theorem final_not_temporary {kind : FileKind} (h : ¬ kind.Temporary) :
    ¬ TemporaryName S.job (S.file kind) := file_not_temporary (i := ()) h

/-- A temporary's name is not that of one of the two files. -/
theorem temporary_ne {name : String} (h : TemporaryName S.job name) (kind : FileKind)
    (hkind : ¬ kind.Temporary) : S.file kind ≠ name := by
  rintro rfl
  exact final_not_temporary hkind h

/-! ## The disk, for one runtime

Every thread relies on the others as publishers do, and on one thing more: where there is a record
there is an artifact. -/

variable (S)

/-- Where there is a record there is an artifact. -/
def Paired (w : World) : Prop :=
  w.dir (S.file .metadata) ≠ none → w.dir (S.file .artifact) ≠ none

/-- The operation does not read the record while it is missing, or of an artifact that is
too large for the reader. -/
def Whole (limit : ℕ) (w : World) : DiskOp → Prop
  | .fs (.read name) => name = S.file .metadata →
      w.dir name ≠ none ∧ S.bytes.length ≤ limit
  | _ => True

/-- The logic of a runtime's file operations. -/
def diskLogic (limit : ℕ) : Rg World DiskOp DiskOp.Answer where
  rely w w' := DiskRely S.E S.job w w' ∧ (S.Paired w → S.Paired w')
  step w op r w' := plain_step w op r w' ∧ S.Whole limit w op
  guar w _ _ w' := DiskRely S.E S.job w w' ∧ (S.Paired w → S.Paired w')
  rely_refl w := ⟨(publisherLogic S.E S.job).rely_refl w, id⟩
  rely_trans w w' w'' h h' :=
    ⟨(publisherLogic S.E S.job).rely_trans w w' w'' h.1 h'.1, fun hp => h'.2 (h.2 hp)⟩

/-- What is so of the disk at every moment: only the entry's files have come into being. -/
structure Known (w : World) : Prop where
  reached : DiskRely S.E S.job emptyWorld w
  paired : S.Paired w

variable {S}

/-- What is known of the disk, the others keep. -/
theorem Known.stable {w w' : World} (h : S.Known w)
    (hrely : DiskRely S.E S.job w w' ∧ (S.Paired w → S.Paired w')) : S.Known w' :=
  ⟨(publisherLogic S.E S.job).rely_trans _ _ _ h.reached hrely.1, hrely.2 h.paired⟩

/-- What a file of the entry holds, if it is there. -/
theorem Known.holds (hS : S.Sound) {w : World} (h : S.Known w) (kind : FileKind) :
    HoldsIf (S.file kind) ((S.job ()).contents S.E kind) w :=
  hS.agree.holdsIf_stable (expected_file kind) h.reached nofun

/-- Nothing else is there. -/
theorem Known.absent {w : World} (h : S.Known w) {p : WasiProfile} (hp : p ≠ S.prepared.profile)
    (kind : FileKind) : w.dir (file_name S.digest p kind) = none := by
  rcases h.reached (file_name S.digest p kind) with hsame | ⟨_, ⟨_, _, -, hname, -⟩, -⟩ | ⟨-, hnone⟩
  · exact hsame
  · exact absurd (file_name_inj hname).2.1 hp
  · exact hnone

theorem publishLogic (limit : ℕ) : PublishLogic S.E S.job (S.diskLogic limit) where
  step _ _ _ _ h := h.1
  rely _ _ h := h.1
  guar _ _ _ _ h := h
  quiet w _ _ w' h := by
    refine ⟨fun name => .inl (congrFun h name), ?_⟩
    unfold Paired
    rw [h]
    exact id
  write w name bytes _ hexp htemp := by
    refine ⟨rely_write hexp w, ?_⟩
    unfold Paired
    dsimp only
    rw [update_of_ne (temporary_ne htemp .metadata id),
      update_of_ne (temporary_ne htemp .artifact id)]
    exact id

/-- `publish` in any runtime does no more than the others rely on. -/
theorem Sound.publish_safe (hS : S.Sound) {limit : ℕ} {cache : DiskCache}
    (hcache : S.Shares cache limit) (pid : UInt32) (w : World) :
    (S.diskLogic limit).Safe (fun _ _ => True)
      (cache.publish S.E pid S.digest S.prepared.profile S.bytes) w := by
  have hrecord : cache.metadata_of S.E S.digest S.prepared.profile S.bytes = S.record :=
    DiskCache.metadata_of_congr hcache.key hcache.target _ _ _
  have htemps : ∀ kind, kind.Temporary → TemporaryName S.job (S.file kind) :=
    fun kind hkind => ⟨(), kind, job_admitted, rfl, hkind⟩
  have hstay : ∀ w w', (S.diskLogic limit).rely w w' → w.dir (S.file .artifact) = some S.bytes →
      w'.dir (S.file .artifact) = some S.bytes :=
    fun _ _ hrely => hS.agree.holds_stable (expected_file .artifact)
      (final_not_temporary id) hrely.1
  have hpaths : DiskCache.paths S.digest S.prepared.profile
      = (S.file .artifact, S.file .metadata) := paths_eq _ _
  have hart : ∀ tag, with_extension (S.file .artifact) ("tmp-" ++ tag)
      = S.file (.artifactTemp tag) := artifact_with_extension _ _
  have hmeta : ∀ tag, with_extension (S.file .metadata) ("tmp-" ++ tag)
      = S.file (.metadataTemp tag) := metadata_with_extension _ _
  rw [DiskCache.publish, hpaths, hrecord]
  by_cases hsize : S.bytes.length > cache.config.max_entry_bytes
  · rw [decide_eq_true hsize, Fallible.reject_true_bind]
    exact fun _ _ => trivial
  rw [decide_eq_false hsize, Fallible.reject_false_bind]
  refine .bindF (hS.agree.atomic_publish_safe (I := fun _ => True) (publishLogic limit)
    (expected_file .artifact) (final_not_temporary id) ?_ (fun _ _ _ h => h) ?_ trivial) ?_
    fun _ _ _ _ _ => trivial
  · intro tag
    rw [hart]
    exact ⟨expected_file (.artifactTemp tag), htemps (.artifactTemp tag) trivial⟩
  · -- With the artifact in place there is a pair whatever the record.
    intro w temporary r htemp _
    refine ⟨rely_rename htemp (expected_file .artifact) w, ?_⟩
    intro _ _
    dsimp only
    rw [Dir.renamed_dst]
    intro hnone
    cases hnone
  · intro _ w₁ hfirst
    refine .mono (hS.agree.atomic_publish_safe (publishLogic limit)
      (I := fun w => w.dir (S.file .artifact) = some S.bytes) (expected_file .metadata)
      (final_not_temporary id) ?_ hstay ?_ (hfirst rfl)) fun _ _ _ => trivial
    · intro tag
      rw [hmeta]
      exact ⟨expected_file (.metadataTemp tag), htemps (.metadataTemp tag) trivial⟩
    · -- The record comes to an artifact that is there already.
      intro w temporary r htemp hthere
      refine ⟨rely_rename htemp (expected_file .metadata) w, ?_⟩
      intro _ _
      have hkind : FileKind.artifact ≠ FileKind.metadata := by decide
      have hne : S.file .artifact ≠ S.file .metadata := file_name_ne hkind
      dsimp only
      rw [Dir.renamed_of_ne _ _ (temporary_ne htemp .artifact id) hne, hthere]
      intro hnone
      cases hnone

/-- The record's artifact is there, and is the entry's. -/
theorem Known.artifact_of_metadata (hS : S.Sound) {w : World} (h : S.Known w)
    (hmeta : w.dir (S.file .metadata) ≠ none) : w.dir (S.file .artifact) = some S.bytes := by
  cases hart : w.dir (S.file .artifact) with
  | none => exact absurd hart (h.paired hmeta)
  | some found => exact congrArg some (h.holds hS .artifact found hart)

/-- A record that is there is the record of the entry, its artifact is there too, and stays. -/
theorem Sound.read_metadata_safe (hS : S.Sound) {limit : ℕ} {w : World} (h : S.Known w)
    (wrap : String → Error) :
    (S.diskLogic limit).Safe (fun r w => r = .ok (Json.render S.record.to_json) ∧
      S.bytes.length ≤ limit ∧ w.dir (S.file .artifact) = some S.bytes)
      (read wrap (S.file .metadata)) w := by
  intro w₁ hrely r w₂ hstep
  obtain ⟨rfl, -, hfound⟩ := plain_read hstep.1
  obtain ⟨hmeta, hlimit⟩ := hstep.2 rfl
  have hknown := h.stable hrely
  obtain ⟨found, hdir⟩ := Option.ne_none_iff_exists'.mp hmeta
  obtain rfl := hfound found hdir
  have hrecord := (hknown.holds hS .metadata found hdir).trans contents_metadata
  refine ⟨(publishLogic limit).quiet _ _ _ _ rfl, ?_⟩
  intro w₃ hrely₃
  refine ⟨congrArg Except.ok hrecord, hlimit, ?_⟩
  exact hS.agree.holds_stable (expected_file .artifact) (final_not_temporary id) hrely₃.1
    (hknown.artifact_of_metadata hS hmeta)

/-- The artifact that is there is read as it is. -/
theorem Sound.read_artifact_safe (hS : S.Sound) {limit : ℕ} {w : World}
    (h : w.dir (S.file .artifact) = some S.bytes) (wrap : String → Error) :
    (S.diskLogic limit).Safe (fun r _ => r = .ok S.bytes) (read wrap (S.file .artifact)) w := by
  intro w₁ hrely r w₂ hstep
  obtain ⟨rfl, -, hfound⟩ := plain_read hstep.1
  obtain rfl := hfound S.bytes (hS.agree.holds_stable (expected_file .artifact)
    (final_not_temporary id) hrely.1 h)
  exact ⟨(publishLogic limit).quiet _ _ _ _ rfl, fun _ _ => rfl⟩

/-- `load`, from where it knows that the entry is there. -/
theorem Sound.load_entry_yields (hS : S.Sound) {limit : ℕ} {cache : DiskCache}
    (hcache : S.Shares cache limit) :
    (S.diskLogic limit).Yields S.Known (fun r => r = .ok (some S.bytes))
      (cache.load_entry S.E S.digest S.prepared.profile) := by
  have hrecord : cache.metadata_of S.E S.digest S.prepared.profile S.bytes = S.record :=
    DiskCache.metadata_of_congr hcache.key hcache.target _ _ _
  have hpaths : DiskCache.paths S.digest S.prepared.profile
      = (S.file .artifact, S.file .metadata) := paths_eq _ _
  have hid : (S.record.identity != cache.identity S.digest S.prepared.profile) = false := by
    rw [← hrecord]
    exact bne_self_eq_false _
  have hcheck : cache.check S.E S.digest S.prepared.profile S.record S.bytes = .ok () := by
    rw [← hrecord]
    exact DiskCache.check_metadata_of _ _ _ _ _
  intro w hknown
  rw [DiskCache.load_entry, hpaths]
  -- Others may replace the files meanwhile, but only with the same two.
  refine .bindF (hS.read_metadata_safe hknown _) ?_ ?_
  swap
  · intro _ _ h
    cases h.1
  rintro _ w₁ ⟨hbytes, hlimit, hart⟩
  cases hbytes
  have hsize : decide (S.record.artifact_len > cache.config.max_entry_bytes) = false := by
    rw [hcache.limit]
    exact decide_eq_false (Nat.not_lt.mpr hlimit)
  rw [hS.decodes, mapError_ok, Fallible.ofExcept_ok_bind, hid, Fallible.reject_false_bind, hsize,
    Fallible.reject_false_bind]
  refine .bindF (hS.read_artifact_safe hart _) ?_ ?_
  swap
  · intro _ _ h
    cases h
  intro artifact w₂ hartifact
  cases hartifact
  rw [hcheck]
  exact fun _ _ => rfl

/-- What `load` may return, and for which profile. -/
def Loads (S : Shared κ) (p : WasiProfile) (found : Option Bytes) : Prop :=
  ∀ artifact, found = some artifact → p = S.prepared.profile ∧ artifact = S.bytes

/-- `load` never fails, as long as it does not read the record too early. -/
theorem Sound.load_yields (hS : S.Sound) {limit : ℕ} {cache : DiskCache}
    (hcache : S.Shares cache limit) (p : WasiProfile) :
    (S.diskLogic limit).Yields S.Known (fun r => ∃ found, r = .ok found ∧ S.Loads p found)
      (cache.load S.E S.digest p) := by
  have hquiet := (publishLogic (S := S) limit).quiet
  have hnone : S.Loads p none := nofun
  rw [DiskCache.load, paths_eq]
  by_cases hp : p = S.prepared.profile
  · subst hp
    have hentry : (S.diskLogic limit).Yields S.Known
        (fun r => ∃ found, r = .ok found ∧ S.Loads S.prepared.profile found)
        (cache.load_entry S.E S.digest S.prepared.profile) := by
      refine (hS.load_entry_yields hcache).mono ?_
      rintro r rfl
      refine ⟨_, rfl, ?_⟩
      rintro artifact ⟨⟩
      exact ⟨rfl, rfl⟩
    intro w hw w₁ hrely r w₂ hstep
    obtain ⟨-, rfl⟩ := plain_exists hstep.1
    refine ⟨hquiet _ _ _ _ rfl, ?_⟩
    cases r with
    | true => exact hentry _ (hw.stable hrely)
    | false =>
      intro w₃ hrely₃ r w₄ hstep
      obtain ⟨-, rfl⟩ := plain_exists hstep.1
      refine ⟨hquiet _ _ _ _ rfl, ?_⟩
      cases r with
      | true => exact hentry _ ((hw.stable hrely).stable hrely₃)
      | false => exact fun _ _ => ⟨none, rfl, hnone⟩
  · -- No file of another profile ever comes to be.
    intro w hw w₁ hrely r w₂ hstep
    obtain ⟨hr, rfl⟩ := plain_exists hstep.1
    rw [(hw.stable hrely).absent hp .artifact] at hr
    subst hr
    refine ⟨hquiet _ _ _ _ rfl, ?_⟩
    intro w₃ hrely₃ r w₄ hstep
    obtain ⟨hr, rfl⟩ := plain_exists hstep.1
    rw [((hw.stable hrely).stable hrely₃).absent hp .metadata] at hr
    subst hr
    exact ⟨hquiet _ _ _ _ rfl, fun _ _ => ⟨none, rfl, hnone⟩⟩

/-! ## The system, for one runtime

`Clean` says of a step that it does not read the record while it is missing, nor when the artifact
is too large for the reader's own limit, the other thing `load` refuses. -/

variable (S)

/-- All that is ever in memory. -/
def MemoryOk (s : System κ) : Prop :=
  ∀ rid, (s.memory rid).All (fun _ prepared => prepared = S.prepared)
    (fun _ aot => aot = ⟨S.bytes, S.prepared.profile⟩)

/-- The step does not read a record too early. -/
def Clean (s : System κ) : RtOp κ → Prop
  | .disk rid op => S.Whole (S.limit rid) s.world op
  | _ => True

/-- A step of a run without failures that is clean too. -/
def clean_step (usize_max : ℕ) (s : System κ) (op : RtOp κ) (answer : op.Answer)
    (s' : System κ) : Prop := rt_step usize_max s op answer s' ∧ S.Clean s op

/-- What the others do: to the disk what publishers do, and to memory nothing wrong. -/
def Moves (s s' : System κ) : Prop :=
  (DiskRely S.E S.job s.world s'.world ∧ (S.Paired s.world → S.Paired s'.world)) ∧
    (S.MemoryOk s → S.MemoryOk s')

/-- The logic of the calls. -/
def logic (usize_max : ℕ) : Rg (System κ) (RtOp κ) RtOp.Answer where
  rely := S.Moves
  step := S.clean_step usize_max
  guar s _ _ s' := S.Moves s s'
  rely_refl s := ⟨(S.diskLogic 0).rely_refl s.world, id⟩
  rely_trans _ _ _ h h' :=
    ⟨(S.diskLogic 0).rely_trans _ _ _ h.1 h'.1, fun hm => h'.2 (h.2 hm)⟩

/-- What is so of the system at every moment. -/
structure Live (s : System κ) : Prop where
  known : S.Known s.world
  memory : S.MemoryOk s

/-- The call returns, if it does, a value of `Q`. -/
def Good (usize_max : ℕ) {α : Type} (Q : α → Prop) (p : RtM κ α) : Prop :=
  (S.logic usize_max).Yields S.Live (fun r => ∃ a, r = .ok a ∧ Q a) p

variable {S} {usize_max : ℕ} {α β : Type}

/-- What the memory holds of the component stays right. -/
theorem Live.stable {s s' : System κ} (h : S.Live s) (hmoves : S.Moves s s') : S.Live s' :=
  ⟨h.known.stable hmoves.1, hmoves.2 h.memory⟩

theorem live_lasting : (S.logic usize_max).Lasting S.Live where
  guar _ _ _ _ h := h
  rely _ _ hmoves h := h.stable hmoves

theorem Good.bind {Q : α → Prop} {Q' : β → Prop} {p : RtM κ α} {f : α → RtM κ β}
    (h : S.Good usize_max Q p) (hf : ∀ a, Q a → S.Good usize_max Q' (f a)) :
    S.Good usize_max Q' (p >>= f) := Rg.Yields.bindF live_lasting h hf

theorem Good.pure {Q : α → Prop} {a : α} (h : Q a) : S.Good usize_max Q (pure a : RtM κ α) :=
  Rg.Yields.ret ⟨a, rfl, h⟩

theorem Good.ofExcept {Q : α → Prop} {x : Except Error α} {a : α} (hx : x = .ok a) (h : Q a) :
    S.Good usize_max Q (Fallible.ofExcept x : RtM κ α) := Rg.Yields.ret ⟨a, hx, h⟩

/-- An effect that changes neither disk nor memory. -/
theorem moves_of_eq {s s' : System κ} (hworld : s'.world = s.world)
    (hmemory : s'.memory = s.memory) : S.Moves s s' := by
  have hsame := (S.logic 0).rely_refl s
  unfold logic Moves MemoryOk at *
  rw [hworld, hmemory]
  exact hsame

/-- The file operations of a runtime, seen from the whole system. -/
theorem onDisk_yields {Q : Except Error α → Prop} (rid : ℕ) {p : DiskM α}
    (h : (S.diskLogic (S.limit rid)).Yields S.Known Q p) :
    (S.logic usize_max).Yields S.Live Q (onDisk rid p) := by
  intro s hs
  refine Rg.Safe.lift System.world (L := S.diskLogic (S.limit rid)) ?_ ?_ ?_ (h s.world hs.known)
  · exact fun _ _ hmoves => hmoves.1
  · rintro s op r s' ⟨⟨-, hrun⟩, hclean⟩
    obtain ⟨rfl, rfl⟩ := Prod.mk.inj hrun
    exact ⟨rfl, hclean⟩
  · rintro s op r s' ⟨⟨-, hrun⟩, -⟩ hguar
    obtain ⟨rfl, rfl⟩ := Prod.mk.inj hrun
    exact ⟨hguar, id⟩

/-- What memory gives is the component. -/
theorem memory_good {Q : (op : MemoryOp κ) → op.Answer → Prop} (rid : ℕ) (op : MemoryOp κ)
    (hputs : op.Puts (fun _ prepared => prepared = S.prepared)
      (fun _ aot => aot = ⟨S.bytes, S.prepared.profile⟩))
    (hQ : ∀ a, op.Gives (fun _ prepared => prepared = S.prepared)
      (fun _ aot => aot = ⟨S.bytes, S.prepared.profile⟩) a → Q op a) :
    S.Good usize_max (Q op) (memory rid op) := by
  intro s hs s₁ hmoves r s₂ hstep
  obtain ⟨rfl, rfl⟩ := Prod.mk.inj hstep.1.2
  obtain ⟨hall, hgives⟩ := op.run_all usize_max ((hs.stable hmoves).memory rid) hputs
  refine ⟨⟨(S.diskLogic 0).rely_refl _, ?_⟩, fun _ _ => ⟨_, rfl, hQ _ hgives⟩⟩
  intro hmemory rid'
  dsimp only
  by_cases hrid : rid' = rid
  · subst hrid
    rw [update_self]
    exact hall
  · rw [update_of_ne hrid]
    exact hmemory rid'

theorem preparation_lock_good (rid : ℕ) (d : Digest) :
    S.Good usize_max (fun _ => True) (preparation_lock rid d) := by
  intro s _ s₁ _ r s₂ hstep
  obtain ⟨rfl, rfl⟩ := Prod.mk.inj hstep.1.2
  exact ⟨moves_of_eq rfl rfl, fun _ _ => ⟨_, rfl, trivial⟩⟩

theorem join_good (rid : ℕ) : S.Good usize_max (fun _ => True) (join rid) := by
  intro s _ s₁ _ r s₂ hstep
  obtain ⟨rfl, rfl⟩ := Prod.mk.inj hstep.1.2
  exact ⟨moves_of_eq rfl rfl, fun _ _ => ⟨(), rfl, trivial⟩⟩

/-- The lock changes nothing that the logic speaks of. -/
theorem guarded_good {Q : α → Prop} (rid : ℕ) (id : LockId) {p : RtM κ α}
    (h : S.Good usize_max Q p) : S.Good usize_max Q (guarded rid id p) := by
  intro s hs s₁ hmoves r s₂ hstep
  obtain ⟨-, rfl⟩ := Prod.mk.inj hstep.1.2
  have hlocked : S.Moves s₁ (RtOp.run usize_max s₁ (.lock rid id)).2 := moves_of_eq rfl rfl
  refine ⟨hlocked, ?_⟩
  refine Rg.Yields.bind live_lasting h ?_ _ ((hs.stable hmoves).stable hlocked)
  intro result hresult s₃ _ s₄ _ r s₅ hstep
  obtain ⟨-, rfl⟩ := Prod.mk.inj hstep.1.2
  exact ⟨moves_of_eq rfl rfl, fun _ _ => hresult⟩

/-! ## `prepare`

Each function, in clean steps, returns the component or nothing. -/

variable (S) in
/-- A runtime whose cache, if it has one, is one of those that share. -/
def Joins (self : RuntimeInner) : Prop :=
  ∀ cache, self.disk = some cache → S.Shares cache (S.limit self.rid)

variable {self : RuntimeInner}

theorem Sound.deserialize_component (hS : S.Sound) :
    S.engine.deserialize_component ⟨S.bytes, S.prepared.profile⟩ = .ok S.prepared :=
  Engine.deserialize_component_ok hS.deserializes (Engine.compile_eq_ok hS.compiles).2.1 rfl

theorem insert_good (rid : ℕ) : S.Good usize_max (fun _ => True)
    (memory rid (.insert S.digest ⟨S.bytes, S.prepared.profile⟩ S.prepared)) :=
  memory_good (Q := fun _ _ => True) rid _ ⟨rfl, rfl⟩ fun _ _ => trivial

/-- The loop over the profiles finds nothing, or the component. -/
theorem Sound.load_profiles_good (hS : S.Sound) {cache : DiskCache} (rid : ℕ)
    (hcache : S.Shares cache (S.limit rid)) (profiles : List WasiProfile) :
    S.Good usize_max (fun found => ∀ prepared, found = some prepared → prepared = S.prepared)
      (load_profiles S.E S.engine rid cache S.digest profiles) := by
  induction profiles with
  | nil => exact .pure nofun
  | cons profile rest ih =>
    rw [load_profiles]
    refine Good.bind (onDisk_yields rid (hS.load_yields hcache profile)) ?_
    intro found hfound
    cases found with
    | none => exact ih
    | some artifact =>
      obtain ⟨rfl, rfl⟩ := hfound artifact rfl
      refine (Good.ofExcept hS.deserialize_component rfl).bind ?_
      rintro prepared rfl
      rw [bne_self_eq_false, Fallible.reject_false_bind]
      refine (insert_good rid).bind fun _ _ => .pure ?_
      rintro prepared ⟨⟩
      rfl

theorem Sound.publish_or_count_good (hS : S.Sound) {cache : DiskCache}
    (hcache : S.Shares cache (S.limit self.rid)) :
    S.Good usize_max (fun _ => True)
      (publish_or_count S.E self cache S.digest S.prepared.profile S.bytes) := by
  refine Rg.Yields.bind (Q := fun _ => True) live_lasting
    (onDisk_yields self.rid fun w _ => hS.publish_safe hcache self.pid w) ?_
  intro r _
  cases r with
  | ok => exact .ret ⟨(), rfl, trivial⟩
  | error e =>
    intro s _ s₁ _ r s₂ hstep
    obtain ⟨-, rfl⟩ := Prod.mk.inj hstep.1.2
    exact ⟨moves_of_eq rfl rfl, fun _ _ => ⟨(), rfl, trivial⟩⟩

/-- Compiled, and published if it can be. -/
theorem Sound.compile_and_publish_good (hS : S.Sound) (hself : S.Joins self) :
    S.Good usize_max (fun prepared => prepared = S.prepared)
      (compile_and_publish S.E S.engine self S.digest S.source) := by
  unfold compile_and_publish
  refine (join_good self.rid).bind fun _ _ => ?_
  refine (Good.ofExcept hS.compiles rfl).bind ?_
  rintro _ rfl
  have hpublish : S.Good usize_max (fun _ => True)
      (publish_to_disk S.E self S.digest S.prepared.profile S.bytes) := by
    unfold publish_to_disk
    cases hdisk : self.disk with
    | none => exact .pure trivial
    | some cache => exact hS.publish_or_count_good (hself cache hdisk)
  refine hpublish.bind fun _ _ => ?_
  exact (insert_good self.rid).bind fun _ _ => .pure rfl

/-- From disk, or compiled. -/
theorem Sound.prepare_cold_good (hS : S.Sound) (hself : S.Joins self) :
    S.Good usize_max (fun prepared => prepared = S.prepared)
      (prepare_cold S.E S.engine self S.digest S.source) := by
  have hload : S.Good usize_max (fun found => ∀ prepared, found = some prepared →
      prepared = S.prepared) (load_from_disk S.E S.engine self S.digest) := by
    unfold load_from_disk
    cases hdisk : self.disk with
    | none => exact .pure nofun
    | some cache => exact hS.load_profiles_good self.rid (hself cache hdisk) _
  refine hload.bind ?_
  intro found hfound
  cases found with
  | some prepared => exact .pure (hfound prepared rfl)
  | none => exact hS.compile_and_publish_good hself

theorem warm_good (rid : ℕ) : S.Good usize_max
    (fun found => ∀ prepared, found = some prepared → prepared = S.prepared)
    (memory rid (.warm S.digest)) := by
  refine memory_good (Q := fun op answer => op.Gives (fun _ prepared => prepared = S.prepared)
    (fun _ aot => aot = ⟨S.bytes, S.prepared.profile⟩) answer) rid (.warm S.digest) ?_ ?_
  · exact trivial
  · exact fun _ h => h

theorem warmish_good (rid : ℕ) : S.Good usize_max
    (fun found => ∀ aot, found = some aot → aot = ⟨S.bytes, S.prepared.profile⟩)
    (memory rid (.warmish S.digest)) := by
  refine memory_good (Q := fun op answer => op.Gives (fun _ prepared => prepared = S.prepared)
    (fun _ aot => aot = ⟨S.bytes, S.prepared.profile⟩) answer) rid (.warmish S.digest) ?_ ?_
  · exact trivial
  · exact fun _ h => h

/-- Under the lock: from memory, from disk, or compiled. -/
theorem Sound.prepare_locked_good (hS : S.Sound) (hself : S.Joins self) :
    S.Good usize_max (fun prepared => prepared = S.prepared)
      (prepare_locked S.E S.engine self S.digest S.source) := by
  unfold prepare_locked
  refine (warm_good self.rid).bind ?_
  intro found hfound
  cases found with
  | some prepared => exact .pure (hfound prepared rfl)
  | none =>
    refine (warmish_good self.rid).bind ?_
    intro found hfound
    cases found with
    | none => exact hS.prepare_cold_good hself
    | some aot =>
      obtain rfl := hfound aot rfl
      refine (Good.ofExcept hS.deserialize_component rfl).bind ?_
      rintro prepared rfl
      refine Good.bind (Q := fun _ => True) (memory_good (Q := fun _ _ => True) self.rid _ ?_
        fun _ _ => trivial) fun _ _ => .pure rfl
      exact rfl

/-- A call of `prepare` all of whose steps are clean, among others of which this is so,
returns the component. -/
theorem Sound.prepare_good (hS : S.Sound) (hself : S.Joins self) :
    S.Good usize_max (fun prepared => prepared = S.prepared)
      (prepare S.E S.engine self S.digest S.source) := by
  unfold prepare
  refine (warm_good self.rid).bind ?_
  intro found hfound
  cases found with
  | some prepared => exact .pure (hfound prepared rfl)
  | none =>
    refine (preparation_lock_good self.rid S.digest).bind fun lock _ => ?_
    exact guarded_good self.rid lock (hS.prepare_locked_good hself)

/-! ## A step that is not clean

Here it is enough to look at the program: from a read that is not clean it can only come to an
error. -/

variable (S) in
/-- If the effect is to read the record, an error of it is the end of the call, and so is the
record itself when the artifact is too large for the reader. -/
def DiskHeeds (limit : ℕ) {γ : Type} :
    (op : DiskOp) → (op.Answer → DiskM γ) → Prop
  | .fs (.read name), k => name = S.file .metadata → (∀ message, Fails (k (.error message))) ∧
      (limit < S.bytes.length → Fails (k (.ok (Json.render S.record.to_json))))
  | _, _ => True

variable (S) in
/-- The same for an effect of the runtime `rid`. -/
def Heeds {γ : Type} : (op : RtOp κ) → (op.Answer → RtM κ γ) → Prop
  | .disk rid (.fs (.read name)), k => name = S.file .metadata →
      (∀ message, Fails (k (.error message))) ∧
        (S.limit rid < S.bytes.length → Fails (k (.ok (Json.render S.record.to_json))))
  | _, _ => True

theorem DiskHeeds.bindF {limit : ℕ} {γ δ : Type} (f : γ → DiskM δ) {op : DiskOp}
    {k : op.Answer → DiskM γ} (h : S.DiskHeeds limit op k) :
    S.DiskHeeds limit op (fun r => (k r >>= f : DiskM δ)) := by
  match op, k, h with
  | .fs (.read name), k, h =>
    intro hname
    obtain ⟨herror, hlarge⟩ := h hname
    exact ⟨fun message => (herror message).bindF f, fun hlimit => (hlarge hlimit).bindF f⟩
  | .fs (.exists_ _), _, _ | .fs (.is_file _), _, _ | .fs (.write _ _), _, _
  | .fs (.set_permissions _), _, _ | .fs (.rename _ _), _, _ | .fetch_add _, _, _ => exact trivial

/-- Whatever comes after, as long as it does not make good an error. -/
theorem Heeds.bind {γ δ : Type} {f : Except Error γ → RtM κ δ} (hf : ∀ e, Fails (f (.error e)))
    {op : RtOp κ} {k : op.Answer → RtM κ γ} (h : S.Heeds op k) :
    S.Heeds op (fun r => Prog.bind (k r) f) := by
  match op, k, h with
  | .disk rid (.fs (.read name)), k, h =>
    intro hname
    obtain ⟨herror, hlarge⟩ := h hname
    exact ⟨fun message => (herror message).bind hf, fun hlimit => (hlarge hlimit).bind hf⟩
  | .disk _ (.fs (.exists_ _)), _, _ | .disk _ (.fs (.is_file _)), _, _
  | .disk _ (.fs (.write _ _)), _, _ | .disk _ (.fs (.set_permissions _)), _, _
  | .disk _ (.fs (.rename _ _)), _, _ | .disk _ (.fetch_add _), _, _ | .memory _ _, _, _
  | .preparation_locks _ _, _, _ | .lock _ _, _, _ | .unlock _ _, _, _ | .spawn_blocking _, _, _
  | .publish_failure _, _, _ => exact trivial

variable (S) in
/-- Every read of the record in the program is heeded. -/
def DiskHeedful (limit : ℕ) {γ : Type} (p : DiskM γ) : Prop :=
  Always (fun _ _ => True) (fun op k => S.DiskHeeds limit op k) p

variable (S) in
/-- The same for the programs of a runtime. -/
def Heedful {γ : Type} (p : RtM κ γ) : Prop :=
  Always (fun _ _ => True) (fun op k => S.Heeds op k) p

theorem DiskHeedful.bindF {limit : ℕ} {γ δ : Type} {p : DiskM γ} {f : γ → DiskM δ}
    (h : S.DiskHeedful limit p) (hf : ∀ a, S.DiskHeedful limit (f a)) :
    S.DiskHeedful limit (p >>= f) := by
  refine Always.bind (fun op k hk => DiskHeeds.bindF f hk) h ?_
  intro r
  cases r with
  | ok a => exact hf a
  | error e => exact trivial

theorem Heedful.bindF {γ δ : Type} {p : RtM κ γ} {f : γ → RtM κ δ}
    (h : S.Heedful p) (hf : ∀ a, S.Heedful (f a)) : S.Heedful (p >>= f) := by
  refine Always.bind (fun op k hk => Heeds.bind ?_ hk) h ?_
  · exact fun e => ⟨e, rfl⟩
  intro r
  cases r with
  | ok a => exact hf a
  | error e => exact trivial

/-- The read of the record, and what `load` does with it. -/
theorem Sound.load_entry_heedful (hS : S.Sound) {limit : ℕ} {cache : DiskCache}
    (hcache : S.Shares cache limit) (p : WasiProfile) :
    S.DiskHeedful limit (cache.load_entry S.E S.digest p) := by
  have hreject : ∀ bad e, S.DiskHeedful limit (Fallible.reject bad e : DiskM Unit) := by
    intro bad e
    cases bad <;> exact trivial
  rw [DiskCache.load_entry, paths_eq]
  refine ⟨?_, fun r _ => ?_⟩
  · intro hname
    obtain ⟨-, rfl, -⟩ := file_name_inj hname
    refine ⟨fun message => ⟨_, rfl⟩, fun hlarge => ?_⟩
    -- An entry that is too large for this cache is refused by its metadata.
    have hsize : decide (S.record.artifact_len > cache.config.max_entry_bytes) = true := by
      rw [hcache.limit]
      exact decide_eq_true hlarge
    show Fails (Fallible.ofExcept ((S.E.from_slice (Json.render S.record.to_json)).mapError _)
      >>= _ : DiskM (Option Bytes))
    rw [hS.decodes, mapError_ok, Fallible.ofExcept_ok_bind, hsize, Fallible.reject_true_bind,
      Fallible.reject_bind]
    split <;> exact ⟨_, rfl⟩
  · cases r with
    | error message => exact trivial
    | ok bytes =>
      refine DiskHeedful.bindF (p := Fallible.ofExcept _) trivial fun metadata => ?_
      refine (hreject _ _).bindF fun _ => ?_
      refine (hreject _ _).bindF fun _ => ?_
      refine ⟨fun hname => ?_, fun r _ => ?_⟩
      · cases (file_name_inj hname).2.2
      cases r with
      | error message => exact trivial
      | ok artifact => exact DiskHeedful.bindF (p := Fallible.ofExcept _) trivial fun _ => trivial

/-- A reader of the entry heeds what it finds. -/
theorem Sound.load_heedful (hS : S.Sound) {limit : ℕ} {cache : DiskCache}
    (hcache : S.Shares cache limit) (p : WasiProfile) :
    S.DiskHeedful limit (cache.load S.E S.digest p) := by
  have hentry := hS.load_entry_heedful hcache p
  rw [DiskCache.load, paths_eq]
  refine ⟨trivial, fun found _ => ?_⟩
  cases found with
  | true => exact hentry
  | false =>
    refine ⟨trivial, fun found _ => ?_⟩
    cases found with
    | true => exact hentry
    | false => exact trivial

theorem onDisk_heedful {γ : Type} (rid : ℕ) {p : DiskM γ} (h : S.DiskHeedful (S.limit rid) p) :
    S.Heedful (onDisk rid p) := by
  refine Always.lift (fun _ _ _ => trivial) ?_ h
  intro op k hk
  match op, k, hk with
  | .fs (.read name), k, hk =>
    intro hname
    obtain ⟨herror, hlarge⟩ := hk hname
    exact ⟨fun message => (herror message).lift, fun hlimit => (hlarge hlimit).lift⟩
  | .fs (.exists_ _), _, _ | .fs (.is_file _), _, _ | .fs (.write _ _), _, _
  | .fs (.set_permissions _), _, _ | .fs (.rename _ _), _, _ | .fetch_add _, _, _ => exact trivial

/-- `publish` reads nothing. -/
def Writes : DiskOp → Prop
  | .fs (.read _) => False
  | _ => True

theorem atomic_publish_writes (pid : UInt32) (path : String) (bytes : Bytes) :
    Only Writes (atomic_publish pid path bytes) := by
  refine ⟨trivial, fun sequence => ⟨trivial, fun r => ?_⟩⟩
  cases r with
  | error message => exact trivial
  | ok =>
    refine ⟨trivial, fun r => ?_⟩
    cases r with
    | error message => exact trivial
    | ok =>
      refine ⟨trivial, fun r => ?_⟩
      cases r <;> exact trivial

/-- Both files are written without a read. -/
theorem publish_writes (cache : DiskCache) (E : CacheEnv) (pid : UInt32) (d : Digest)
    (p : WasiProfile) (bytes : Bytes) : Only Writes (cache.publish E pid d p bytes) := by
  unfold DiskCache.publish
  refine Only.bindF (Only.reject _ _) fun _ => ?_
  exact Only.bindF (atomic_publish_writes _ _ _) fun _ => atomic_publish_writes _ _ _

theorem heeds_of_writes {γ : Type} (rid : ℕ) {op : DiskOp} (h : Writes op)
    (k : op.Answer → RtM κ γ) : S.Heeds (.disk rid op) k := by
  match op, k, h with
  | .fs (.exists_ _), _, _ | .fs (.is_file _), _, _ | .fs (.write _ _), _, _
  | .fs (.set_permissions _), _, _ | .fs (.rename _ _), _, _ | .fetch_add _, _, _ => exact trivial

theorem publish_or_count_heedful (cache : DiskCache) (d : Digest) (p : WasiProfile)
    (bytes : Bytes) : S.Heedful (publish_or_count S.E self cache d p bytes : RtM κ Unit) := by
  refine Only.always ?_
  refine Only.bind (Only.lift ?_ (publish_writes cache S.E self.pid d p bytes)) ?_
  · exact fun op hop k => heeds_of_writes self.rid hop k
  intro r
  cases r with
  | ok => exact trivial
  | error e => exact ⟨fun _ => trivial, fun _ => trivial⟩

theorem memory_heedful (rid : ℕ) (op : MemoryOp κ) : S.Heedful (memory rid op) := by
  refine ⟨trivial, fun r _ => ?_⟩
  cases r <;> exact trivial

/-- The loop over the profiles. -/
theorem Sound.load_profiles_heedful (hS : S.Sound) {cache : DiskCache} (rid : ℕ)
    (hcache : S.Shares cache (S.limit rid)) (profiles : List WasiProfile) :
    S.Heedful (load_profiles S.E S.engine rid cache S.digest profiles) := by
  induction profiles with
  | nil => exact trivial
  | cons profile rest ih =>
    rw [load_profiles]
    refine Heedful.bindF (onDisk_heedful rid (hS.load_heedful hcache profile)) ?_
    intro found
    cases found with
    | none => exact ih
    | some artifact =>
      refine Heedful.bindF (p := Fallible.ofExcept _) trivial fun prepared => ?_
      rw [Fallible.reject_bind]
      split
      · exact trivial
      · exact Heedful.bindF (memory_heedful rid _) fun _ => trivial

theorem compile_and_publish_heedful :
    S.Heedful (compile_and_publish S.E S.engine self S.digest S.source) := by
  unfold compile_and_publish
  have hjoin : S.Heedful (join self.rid : RtM κ Unit) := by
    refine ⟨trivial, fun r _ => ?_⟩
    cases r <;> exact trivial
  refine hjoin.bindF fun _ => ?_
  refine Heedful.bindF (p := Fallible.ofExcept _) trivial ?_
  rintro ⟨prepared, bytes⟩
  refine Heedful.bindF ?_ fun _ => Heedful.bindF (memory_heedful self.rid _) fun _ => trivial
  unfold publish_to_disk
  cases self.disk with
  | none => exact trivial
  | some cache => exact publish_or_count_heedful cache _ _ _

/-- The cold path is a reader and a publish. -/
theorem Sound.prepare_cold_heedful (hS : S.Sound) (hself : S.Joins self) :
    S.Heedful (prepare_cold S.E S.engine self S.digest S.source) := by
  refine Heedful.bindF ?_ ?_
  · unfold load_from_disk
    cases hdisk : self.disk with
    | none => exact trivial
    | some cache => exact hS.load_profiles_heedful self.rid (hself cache hdisk) _
  · intro found
    cases found with
    | some prepared => exact trivial
    | none => exact compile_and_publish_heedful

theorem Sound.prepare_locked_heedful (hS : S.Sound) (hself : S.Joins self) :
    S.Heedful (prepare_locked S.E S.engine self S.digest S.source) := by
  refine Heedful.bindF (memory_heedful self.rid _) ?_
  intro found
  cases found with
  | some prepared => exact trivial
  | none =>
    refine Heedful.bindF (memory_heedful self.rid _) ?_
    intro found
    cases found with
    | none => exact hS.prepare_cold_heedful hself
    | some aot =>
      refine Heedful.bindF (p := Fallible.ofExcept _) trivial fun prepared => ?_
      exact Heedful.bindF (memory_heedful self.rid _) fun _ => trivial

/-- No part of `prepare` makes good such an error. -/
theorem Sound.prepare_heedful (hS : S.Sound) (hself : S.Joins self) :
    S.Heedful (prepare S.E S.engine self S.digest S.source) := by
  refine Heedful.bindF (memory_heedful self.rid _) ?_
  intro found
  cases found with
  | some prepared => exact trivial
  | none =>
    have hlock : S.Heedful (preparation_lock self.rid S.digest : RtM κ LockId) := by
      refine ⟨trivial, fun r _ => ?_⟩
      cases r <;> exact trivial
    refine hlock.bindF fun _ => ⟨trivial, fun _ _ => ?_⟩
    -- The lock is dropped after an error as after anything else, and the error goes on.
    refine Always.bind (fun op k hk => Heeds.bind ?_ hk) (hS.prepare_locked_heedful hself) ?_
    · exact fun e _ => ⟨e, rfl⟩
    · exact fun result => ⟨trivial, fun _ _ => trivial⟩

/-! ## Whole runs

A run without failures in which every call returns is one in which all return the component exactly
if all its steps are clean. -/

/-- Nothing on disk, and every memory as `MemoryCache::new` leaves it. -/
structure Fresh (s : System κ) : Prop where
  dir : ∀ name, s.world.dir name = none
  memory : ∀ rid, ∃ limits, s.memory rid = .new limits

/-- A fresh system holds nothing wrong. -/
theorem Fresh.live {s : System κ} (h : Fresh s) : S.Live s := by
  refine ⟨⟨fun name => .inl (h.dir name), fun hmeta => absurd (h.dir _) hmeta⟩, ?_⟩
  intro rid
  obtain ⟨limits, hnew⟩ := h.memory rid
  rw [hnew]
  exact .new limits

variable {ι : Type}

/-- A call of `prepare` in each of the runtimes. -/
def start (S : Shared κ) (selves : ι → RuntimeInner) (s : System κ) :
    Pool ι (System κ) (RtOp κ) RtOp.Answer (Except Error (PreparedComponent κ)) :=
  ⟨s, fun i => prepare S.E S.engine (selves i) S.digest S.source⟩

/-- A run of the calls, by steps of a kind; nothing else happens. -/
def RunBy [DecidableEq ι] (step : System κ → (op : RtOp κ) → op.Answer → System κ → Prop) :
    Pool ι (System κ) (RtOp κ) RtOp.Answer (Except Error (PreparedComponent κ)) →
    Pool ι (System κ) (RtOp κ) RtOp.Answer (Except Error (PreparedComponent κ)) → Prop :=
  Pool.Run step fun _ _ => False

section Runs

variable [DecidableEq ι] {selves : ι → RuntimeInner} {s : System κ}
  {P : Pool ι (System κ) (RtOp κ) RtOp.Answer (Except Error (PreparedComponent κ))}

/-- Every state of a clean run. -/
theorem Sound.run_live (hS : S.Sound) (hselves : ∀ i, S.Joins (selves i)) (hs : Fresh s)
    (hrun : RunBy (S.clean_step usize_max) (S.start selves s) P) : S.Live P.state := by
  refine Live.stable hs.live (Pool.run_rely (L := S.logic usize_max) (fun _ _ _ _ h => h)
    (fun _ _ h => h.elim) (fun i => hS.prepare_good (hselves i) _ hs.live) hrun)

/-- What a clean run returns. -/
theorem Sound.run_returns (hS : S.Sound) (hselves : ∀ i, S.Joins (selves i)) (hs : Fresh s)
    (hrun : RunBy (S.clean_step usize_max) (S.start selves s) P) {i : ι}
    {r : Except Error (PreparedComponent κ)} (hi : P.threads i = .ret r) :
    r = .ok S.prepared := by
  have hsafe := Pool.safe (L := S.logic usize_max) (fun _ _ _ _ h => h) (fun _ _ h => h.elim)
    (fun i => hS.prepare_good (hselves i) _ hs.live) hrun i
  rw [hi] at hsafe
  obtain ⟨prepared, rfl, rfl⟩ := hsafe _ ((S.logic usize_max).rely_refl _)
  rfl

/-- A step that is not clean dooms its call. -/
theorem fails_of_not_clean (hS : S.Sound) {s s' : System κ} (hlive : S.Live s) {op : RtOp κ}
    {k : op.Answer → RtM κ (PreparedComponent κ)} {r : op.Answer} (hheeds : S.Heeds op k)
    (hstep : rt_step usize_max s op r s') (hclean : ¬ S.Clean s op) : Fails (k r) := by
  match op, k, r, hheeds, hstep, hclean with
  | .disk rid (.fs (.read name)), k, r, hheeds, hstep, hclean =>
    have hname : name = S.file .metadata := by
      by_contra hne
      exact hclean fun h => absurd h hne
    obtain ⟨herror, hlarge⟩ := hheeds hname
    have hplain : plain_step s.world (.fs (.read name)) r
        (DiskOp.run s.world (.fs (.read name))).2 := by
      rw [← (Prod.mk.inj hstep.2).1]
      rfl
    obtain ⟨-, hnone, hsome⟩ := plain_read hplain
    cases hfound : s.world.dir name with
    | none =>
      rw [hnone hfound]
      exact herror _
    | some found =>
      -- The record is there, so it is the limit that makes the step unclean.
      have hlimit : S.limit rid < S.bytes.length := by
        by_contra hle
        exact hclean fun _ => ⟨by rw [hfound]; exact nofun, Nat.not_lt.mp hle⟩
      subst hname
      rw [hsome found hfound, hlive.known.holds hS .metadata found hfound, contents_metadata]
      exact hlarge hlimit
  | .disk _ (.fs (.exists_ _)), _, _, _, _, hclean | .disk _ (.fs (.is_file _)), _, _, _, _, hclean
  | .disk _ (.fs (.write _ _)), _, _, _, _, hclean
  | .disk _ (.fs (.set_permissions _)), _, _, _, _, hclean
  | .disk _ (.fs (.rename _ _)), _, _, _, _, hclean | .disk _ (.fetch_add _), _, _, _, _, hclean
  | .memory _ _, _, _, _, _, hclean | .preparation_locks _ _, _, _, _, _, hclean
  | .lock _ _, _, _, _, _, hclean | .unlock _ _, _, _, _, _, hclean
  | .spawn_blocking _, _, _, _, _, hclean | .publish_failure _, _, _, _, _, hclean =>
    exact absurd trivial hclean

/-- A run is clean as far as it goes, or one of its calls is doomed. -/
theorem Sound.run_clean_or_fails (hS : S.Sound) (hselves : ∀ i, S.Joins (selves i))
    (hs : Fresh s) (hrun : RunBy (rt_step usize_max) (S.start selves s) P) :
    RunBy (S.clean_step usize_max) (S.start selves s) P ∨ ∃ i, Fails (P.threads i) := by
  induction hrun with
  | refl => exact .inl .refl
  | @tail P P' hbefore hmove ih =>
    cases hmove with
    | env s' hs' => exact hs'.elim
    | thread i op k r s' hi hstep =>
      rcases ih with hclean | ⟨j, hfails⟩
      · by_cases hop : S.Clean P.state op
        · exact .inl (.tail hclean (.thread P i op k r s' hi ⟨hstep, hop⟩))
        · -- The first step that is not clean: its thread heeds the answer and fails.
          have hheeds := Pool.always (P := S.start selves s) (A := fun _ op k => S.Heeds op k)
            (fun _ _ _ _ _ => trivial) (fun i => hS.prepare_heedful (hselves i)) hbefore i
          rw [hi] at hheeds
          refine .inr ⟨i, ?_⟩
          dsimp only
          rw [update_self]
          exact fails_of_not_clean hS (hS.run_live hselves hs hclean) hheeds.1 hstep hop
      · refine .inr ⟨j, ?_⟩
        dsimp only
        by_cases hj : j = i
        · subst hj
          rw [hi] at hfails
          rw [update_self]
          exact hfails r
        · rw [update_of_ne hj]
          exact hfails

end Runs

/-- A call of `prepare` in each of any number of runtimes that share an empty directory, in
a run without failures. As long as no step reads the record of the entry while it is
missing, or in a runtime whose limit is below the size of the artifact, every call that has
returned has returned the component. And it takes no less: if all have returned, all have
returned a component only if no step was of that kind. -/
theorem concurrent_prepare_ok_iff_clean [DecidableEq ι] (S : Shared κ) (hS : S.Sound)
    (usize_max : ℕ) (selves : ι → RuntimeInner) (hselves : ∀ i, S.Joins (selves i))
    (s : System κ) (hs : Fresh s)
    (P : Pool ι (System κ) (RtOp κ) RtOp.Answer (Except Error (PreparedComponent κ)))
    (hrun : RunBy (rt_step usize_max) (S.start selves s) P) :
    (RunBy (S.clean_step usize_max) (S.start selves s) P →
      ∀ i r, P.threads i = .ret r → r = .ok S.prepared) ∧
    ((∀ i, ∃ r, P.threads i = .ret r) →
      ((∀ i, ∃ prepared, P.threads i = .ret (.ok prepared)) ↔
        RunBy (S.clean_step usize_max) (S.start selves s) P)) := by
  refine ⟨fun hclean i r hi => hS.run_returns hselves hs hclean hi, fun hdone => ⟨?_, ?_⟩⟩
  · intro hok
    rcases hS.run_clean_or_fails hselves hs hrun with hclean | ⟨i, hfails⟩
    · exact hclean
    · -- A call that is doomed has not returned a component.
      obtain ⟨prepared, hi⟩ := hok i
      rw [hi] at hfails
      obtain ⟨e, he⟩ := hfails
      cases he
  · intro hclean i
    obtain ⟨r, hi⟩ := hdone i
    obtain rfl := hS.run_returns hselves hs hclean hi
    exact ⟨S.prepared, hi⟩

end Shared

/-! ## Two runtimes

One schedule that reads too early, and one that does not. -/

/-- The component of `TierTransparency.lean`, in runtimes with the default limit. -/
def sampleShared : Shared Unit where
  E := sampleCacheEnv
  engine := sampleEngine
  disk := sampleCache
  limit _ := sampleCache.config.max_entry_bytes
  source := sampleComponent
  prepared := ⟨(), .Cli0_2⟩
  bytes := sampleAot

/-- Two runtimes in two processes. -/
def twoRuntimes (second : Bool) : RuntimeInner :=
  if second then sampleRuntime 1 2 else sampleRuntime 0 1

theorem sampleShared_sound : sampleShared.Sound where
  compiles := sampleEngine_compile
  deserializes := by
    simp only [sampleShared, sampleEngine, if_true]
  decodes := by
    have hrecord : sampleShared.record = sampleCacheMetadata := by
      show sampleCache.metadata_of sampleCacheEnv
        (component_digest sampleCacheEnv.crypto sampleComponent) .Cli0_2 sampleAot = _
      rw [sampleComponent_digest, sampleCache_metadata_of]
    rw [hrecord]
    exact sampleCacheEnv_decodes

theorem twoRuntimes_joins (i : Bool) : sampleShared.Joins (twoRuntimes i) := by
  intro cache hcache
  have hdisk : (twoRuntimes i).disk = some sampleCache := by
    cases i <;> rfl
  rw [hdisk] at hcache
  cases hcache
  exact ⟨rfl, rfl, rfl⟩

theorem emptySystem_fresh : Shared.Fresh emptySystem :=
  ⟨fun _ => rfl, fun _ => ⟨_, rfl⟩⟩

/-- The second runtime looks between the renames of the first. No operation fails but the
read of a record that is not there yet, and the component compiles. -/
theorem concurrent_prepare_half_published :
    sampleShared.Sound ∧ (∀ i, sampleShared.Joins (twoRuntimes i)) ∧ Shared.Fresh emptySystem ∧
      ∃ P, Shared.RunBy (rt_step (2 ^ 64 - 1)) (sampleShared.start twoRuntimes emptySystem) P ∧
        P.threads true = .ret (.error (.Cache
          "metadata read failed: No such file or directory (os error 2)")) := by
  have hcomputed : ((sampleShared.start twoRuntimes emptySystem).follow (RtOp.answer (2 ^ 64 - 1))
      (List.replicate 18 false ++ List.replicate 25 true)).map (·.result true)
      = some (some (.error (.Cache
        "metadata read failed: No such file or directory (os error 2)"))) := by decide +kernel
  obtain ⟨P, hP, hresult⟩ := Option.map_eq_some_iff.mp hcomputed
  exact ⟨sampleShared_sound, twoRuntimes_joins, emptySystem_fresh, P,
    Pool.follow_run rt_step_of_answer hP, Pool.threads_of_result hresult⟩

/-- The two one after the other: the second finds what the first has published, and no step
of the run reads a record too early. -/
theorem concurrent_prepare_one_after_other :
    ∃ P, Shared.RunBy (rt_step (2 ^ 64 - 1)) (sampleShared.start twoRuntimes emptySystem) P ∧
      (∀ i, P.threads i = .ret (.ok ⟨(), .Cli0_2⟩)) ∧
      Shared.RunBy (sampleShared.clean_step (2 ^ 64 - 1))
        (sampleShared.start twoRuntimes emptySystem) P := by
  have hcomputed : ((sampleShared.start twoRuntimes emptySystem).follow (RtOp.answer (2 ^ 64 - 1))
      (List.replicate 25 false ++ List.replicate 25 true)).map (fun P =>
        (P.result false, P.result true))
      = some (some (.ok ⟨(), .Cli0_2⟩), some (.ok ⟨(), .Cli0_2⟩)) := by decide +kernel
  obtain ⟨P, hP, hresult⟩ := Option.map_eq_some_iff.mp hcomputed
  have hrun : Shared.RunBy (rt_step (2 ^ 64 - 1)) (sampleShared.start twoRuntimes emptySystem) P :=
    Pool.follow_run rt_step_of_answer hP
  have hok : ∀ i, P.threads i = .ret (.ok ⟨(), .Cli0_2⟩) := by
    intro i
    cases i with
    | false => exact Pool.threads_of_result (congrArg Prod.fst hresult)
    | true => exact Pool.threads_of_result (congrArg Prod.snd hresult)
  refine ⟨P, hrun, hok, ?_⟩
  exact ((Shared.concurrent_prepare_ok_iff_clean sampleShared sampleShared_sound (2 ^ 64 - 1)
    twoRuntimes twoRuntimes_joins emptySystem emptySystem_fresh _ hrun).2
    fun i => ⟨_, hok i⟩).mp fun i => ⟨_, hok i⟩

end WasmRuntime.Cache
