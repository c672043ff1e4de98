/-
`install_pinned_exec`, `enter_linux_wasix_worker_isolation`: a worker does not outlive its parent.

The kernel sends a process a signal when its parent dies, if the process has asked for it. That has
three holes. A parent that is dead already when the signal is armed is not noticed. `execve` disarms
the signal if the file has set-id bits or capabilities, or if the real and the effective identities
differ. And it is disarmed whenever an effective or file system identity changes, which is what the
worker itself does when it drops its credentials.
-/
import WasmRuntime.CaptureJournal
import WasmRuntime.PinnedExecutable
import WasmRuntime.WorkerIsolation

set_option autoImplicit false

namespace WasmRuntime.Worker

open Prog

/-! ## A process, as the kernel has it

Of a process only what decides this is kept: its parent, its identities, the signal and its life.
The parent may die between any two calls (`Fate`). -/

/-- The identities that matter to the death signal. -/
structure Identity where
  real : UInt32
  effective : UInt32
  filesystem : UInt32

/-- A process. `reaper` is none as long as the parent lives; a process that has lost its parent is
given to another one. -/
structure Process where
  parent : ℕ
  reaper : Option (Option ℕ)
  alive : Bool
  death_signal : Bool
  users : Identity
  groups : Identity

/-- What `getppid` answers. -/
def Process.ppid (s : Process) : Option ℕ := s.reaper.getD (some s.parent)

/-- New credentials. The signal stays armed if no effective or file system identity changes. -/
def Process.become (s : Process) (users groups : Identity) : Process :=
  { s with
    users, groups
    death_signal := s.death_signal && users.effective == s.users.effective
      && users.filesystem == s.users.filesystem && groups.effective == s.groups.effective
      && groups.filesystem == s.groups.filesystem }

/-- What a call of the worker does. The other calls, and those that fail, change nothing of this. -/
def Process.effect (s : Process) : (op : IsolationOp) → op.Answer → Process → Prop
  | .getppid, parent, s' => s' = s ∧ parent = s.ppid
  | .set_parent_process_death_signal, .ok _, s' => s' = { s with death_signal := true }
  | .setresgid group, .ok _, s' => s' = s.become s.users ⟨group, group, group⟩
  | .setresuid user, .ok _, s' => s' = s.become ⟨user, user, user⟩ s.groups
  | .setfsgid group, _, s' => s' = s ∨ s' = s.become s.users { s.groups with filesystem := group }
  | .setfsuid user, _, s' => s' = s ∨ s' = s.become { s.users with filesystem := user } s.groups
  | _, _, s' => s' = s

/-- What happens to a process without its doing: it is killed, or its parent dies and it is given to
another one; if the signal is armed then, it is gone as well. -/
inductive Misfortune : Process → Process → Prop where
  | killed (s : Process) : Misfortune s { s with alive := false }
  | orphaned (s : Process) (reaper : Option ℕ) (hother : reaper ≠ some s.parent) :
      Misfortune s { s with reaper := some reaper, alive := s.alive && !s.death_signal }

/-- Any number of times. -/
abbrev Fate : Process → Process → Prop := Relation.ReflTransGen Misfortune

/-! ## `install_pinned_exec`

The signal is armed before the image is started, and only files without set-id bits and capabilities
are executed. -/

/-- The calls between the fork and the report. -/
inductive BirthOp where
  | isolation (op : IsolationOp)
  | execveat (descriptor : Fd)

@[reducible] def BirthOp.Answer : BirthOp → Type
  | .isolation op => op.Answer
  | .execveat _ => Except String Unit

/-- A program of the child. -/
abbrev BirthM := Fallible BirthOp BirthOp.Answer String

/-- A program of the worker, as part of that. -/
def isolating {α : Type} (p : IsolationM α) : BirthM α := p.lift .isolation fun _ answer => answer

/-- The closure that `install_pinned_exec` leaves to run in the child. `execveat` returns only if it
fails; otherwise the worker's own program goes on from there. -/
def pre_exec (expected_parent : ℕ) (descriptor : Fd) : BirthM Unit := do
  isolating (arm "" "No such process (os error 3)" expected_parent)
  Fallible.orElse id (perform (BirthOp.execveat descriptor))

/-- From the fork to the report. -/
def born (W : Env) (expected_parent : ℕ) (descriptor : Fd) : BirthM WasixWorkerIsolation := do
  pre_exec expected_parent descriptor
  isolating (enter_linux_wasix_worker_isolation W)

/-- Real and effective identities are the same. -/
def Process.Plain (s : Process) : Prop :=
  s.users.real = s.users.effective ∧ s.groups.real = s.groups.effective

/-- What a new image is started with. -/
structure Started (image : Pin.Inode) (s s' : Process) : Prop where
  parent : s'.parent = s.parent
  reaper : s'.reaper = s.reaper
  alive : s'.alive = s.alive
  death_signal : s.Plain → image.st_mode &&& 0o6000 = 0 → image.capability = [] →
    s'.death_signal = s.death_signal

/-- What a call does. A process that is dead makes none. -/
def kernelOf (d : Pin.Disk) (s : Process) : (op : BirthOp) → op.Answer → Process → Prop
  | .isolation op, answer, s' => s.alive = true ∧ s.effect op answer s'
  | .execveat descriptor, .ok _, s' => s.alive = true ∧
      ∃ image, d.Holds descriptor image ∧ Started image s s'
  | .execveat _, .error _, s' => s.alive = true ∧ s' = s

/-- All calls, while the parent may die. -/
def birthLogic (d : Pin.Disk) : Rg Process BirthOp BirthOp.Answer where
  rely := Fate
  step := kernelOf d
  guar _ _ _ _ := True
  rely_refl _ := .refl
  rely_trans _ _ _ := .trans

/-- Those of the worker. -/
def isolationLogic : Rg Process IsolationOp IsolationOp.Answer where
  rely := Fate
  step s op r s' := s.alive = true ∧ s.effect op r s'
  guar _ _ _ _ := True
  rely_refl _ := .refl
  rely_trans _ _ _ := .trans

theorem isolating_safe (d : Pin.Disk) {α : Type} {p : IsolationM α} {s : Process}
    {Q : Except String α → Process → Prop} (h : isolationLogic.Safe Q p s) :
    (birthLogic d).Safe Q (isolating p) s := by
  unfold isolating
  refine .lift id ?_ ?_ ?_ h
  · exact fun _ _ h => h
  · exact fun _ _ _ _ h => h
  · exact fun _ _ _ _ _ _ => trivial

/-! ## What holds of the process as it goes along

While the signal is disarmed the worker may lose its parent and go on for a while. -/

/-- The child of this parent, or given to another one. -/
def Process.Of (parent : ℕ) (s : Process) : Prop :=
  s.parent = parent ∧ s.reaper ≠ some (some parent)

/-- The signal is armed, and the parent was there after that. -/
def Process.Guarded (s : Process) : Prop :=
  s.death_signal = true ∧ (s.alive = true → s.reaper = none)

section Parts

open Monitor

variable {parent : ℕ} {s s' : Process}

theorem Fate.keeps {I : Process → Prop} (hkilled : ∀ s, I s → I { s with alive := false })
    (horphaned : ∀ s reaper, reaper ≠ some s.parent → I s →
      I { s with reaper := some reaper, alive := s.alive && !s.death_signal })
    (h : Fate s s') (hs : I s) : I s' := by
  induction h with
  | refl => exact hs
  | tail _ hstep ih =>
    cases hstep with
    | killed => exact hkilled _ ih
    | orphaned reaper hother => exact horphaned _ reaper hother ih

theorem Fate.armed (h : Fate s s') (hs : s.death_signal = true) : s'.death_signal = true :=
  keeps (I := fun s => s.death_signal = true) (fun _ h => h) (fun _ _ _ h => h) h hs

theorem Fate.plain (h : Fate s s') (hs : s.Plain) : s'.Plain :=
  keeps (I := Process.Plain) (fun _ h => h) (fun _ _ _ h => h) h hs

theorem Fate.of (h : Fate s s') (hs : s.Of parent) : s'.Of parent := by
  refine keeps (I := Process.Of parent) (fun _ h => h) ?_ h hs
  rintro s reaper hother ⟨rfl, -⟩
  exact ⟨rfl, fun hreaper => hother (Option.some.inj hreaper)⟩

theorem Fate.guarded (h : Fate s s') (hs : s.Guarded) : s'.Guarded := by
  refine keeps ?_ ?_ h hs
  · exact fun s hs => ⟨hs.1, fun halive => absurd halive Bool.false_ne_true⟩
  · rintro s reaper - ⟨harmed, -⟩
    refine ⟨harmed, fun halive => ?_⟩
    rw [harmed, Bool.not_true, Bool.and_false] at halive
    cases halive

/-- A process that finds its parent has it. -/
theorem Process.Of.attached (hs : s.Of parent) (hparent : s.ppid = some parent) :
    s.reaper = none := by
  cases hreaper : s.reaper with
  | none => rfl
  | some reaper =>
    rw [Process.ppid, hreaper, Option.getD_some] at hparent
    exact absurd (hreaper.trans (congrArg some hparent)) hs.2

/-- The calls after which the signal is as it was, or armed. -/
def IsolationOp.Faithful : IsolationOp → Prop
  | .setresgid _ | .setresuid _ | .setfsgid _ | .setfsuid _ => False
  | _ => True

/-- What a call can do: it never changes whose child the process is, nor its life. -/
theorem effect_kept {op : IsolationOp} {r : op.Answer} (h : s.effect op r s') :
    s'.parent = s.parent ∧ s'.reaper = s.reaper ∧ s'.alive = s.alive ∧
      (op.Faithful → s.death_signal = true → s'.death_signal = true) := by
  cases op with
  | getppid =>
    obtain ⟨rfl, -⟩ := h
    exact ⟨rfl, rfl, rfl, fun _ => id⟩
  | set_parent_process_death_signal =>
    cases r with
    | ok _ =>
      obtain rfl : s' = _ := h
      exact ⟨rfl, rfl, rfl, fun _ _ => rfl⟩
    | error _ =>
      obtain rfl : s' = s := h
      exact ⟨rfl, rfl, rfl, fun _ => id⟩
  | setresgid _ | setresuid _ => cases r <;> cases h <;> exact ⟨rfl, rfl, rfl, False.elim⟩
  | setfsgid _ | setfsuid _ => rcases h with rfl | rfl <;> exact ⟨rfl, rfl, rfl, False.elim⟩
  | _ =>
    obtain rfl : s' = s := h
    exact ⟨rfl, rfl, rfl, fun _ => id⟩

/-- Whatever the worker does, it is nobody else's child by that. -/
theorem of_safe {α : Type} (p : IsolationM α) (hs : s.Of parent) :
    isolationLogic.Safe (Post fun _ s' => s'.Of parent) p s := by
  induction p generalizing s with
  | ret r => exact fun _ hfate => .of fun _ _ => Fate.of hfate hs
  | vis op k ih =>
    intro s₁ h₁ r s₂ hmove
    obtain ⟨hparent, hreaper, -⟩ := effect_kept hmove.2
    refine ⟨trivial, ih r ⟨hparent.trans (Fate.of h₁ hs).1, ?_⟩⟩
    rw [hreaper]
    exact (Fate.of h₁ hs).2

/-- So a step of its program can do anything before the rest. -/
theorem Process.Of.after {α β : Type} {f : α → IsolationM β} {Q : β → Process → Prop}
    (hs : s.Of parent) (p : IsolationM α)
    (hf : ∀ a s', s'.Of parent → isolationLogic.Safe (Post Q) (f a) s') :
    isolationLogic.Safe (Post Q) (p >>= f : IsolationM β) s :=
  safe_bind (of_safe p hs) hf

/-- As long as it makes no other calls than these, it stays guarded. -/
theorem guarded_safe {α : Type} {p : IsolationM α} (hp : p.Only IsolationOp.Faithful)
    (hs : s.Guarded) : isolationLogic.Safe (Post fun _ s' => s'.Guarded) p s := by
  induction p generalizing s with
  | ret r => exact fun _ hfate => .of fun _ _ => Fate.guarded hfate hs
  | vis op k ih =>
    intro s₁ h₁ r s₂ hmove
    obtain ⟨-, hreaper, halive, hsignal⟩ := effect_kept hmove.2
    have hguarded := Fate.guarded h₁ hs
    refine ⟨trivial, ih r (hp.2 r) ⟨hsignal hp.1 hguarded.1, ?_⟩⟩
    rw [hreaper, halive]
    exact hguarded.2

/-- One such call of a guarded process, before the rest. -/
theorem Process.Guarded.after {α β : Type} {f : α → IsolationM β} {Q : β → Process → Prop}
    {wrap : String → String} {p : Prog IsolationOp IsolationOp.Answer (Except String α)}
    (hs : s.Guarded) (hp : p.Only IsolationOp.Faithful)
    (hf : ∀ a s', s'.Guarded → isolationLogic.Safe (Post Q) (f a) s') :
    isolationLogic.Safe (Post Q) (Fallible.orElse wrap p >>= f : IsolationM β) s :=
  safe_bind (guarded_safe (Only.orElse hp) hs) hf

/-! ## Arming the signal

The parent is looked for after the signal is armed, both times. -/

/-- What arming leaves alone, it leaves alone; and the process is guarded. -/
theorem arm_safe (message text : String) {I : Process → Prop} (hof : ∀ s, I s → s.Of parent)
    (hfate : ∀ s s', Fate s s' → I s → I s')
    (harm : ∀ s, I s → I { s with death_signal := true }) (hs : I s) :
    isolationLogic.Safe (Post fun _ s' => s'.Guarded ∧ I s') (arm message text parent) s := by
  refine safe_bind (Q := fun _ s' => s'.death_signal = true ∧ I s')
    (safe_orElse (safe_perform ?_ ?_)) ?_
  · rintro s₁ h₁ r s₂ ⟨-, heffect⟩
    refine ⟨trivial, .of fun _ hr => ?_⟩
    subst hr
    obtain rfl : s₂ = { s₁ with death_signal := true } := heffect
    exact ⟨rfl, harm s₁ (hfate s s₁ h₁ hs)⟩
  · exact fun r s₁ s₂ h hr => hr.imp fun _ hr => ⟨Fate.armed h hr.1, hfate _ _ h hr.2⟩
  rintro _ s₁ ⟨harmed, hs₁⟩
  -- If the parent is there when we look, it was there when the signal was armed.
  refine safe_bind (Q := fun answer s' => (answer = some parent → s'.Guarded) ∧ I s') ?_ ?_
  · rintro s₂ h₂ _ s₃ ⟨-, rfl, rfl⟩
    have hs₃ := hfate _ _ h₂ hs₁
    refine ⟨trivial, fun s₄ h₄ => ⟨fun hparent => Fate.guarded h₄ ⟨?_, fun _ => ?_⟩, ?_⟩⟩
    · exact Fate.armed h₂ harmed
    · exact (hof _ hs₃).attached hparent
    · exact hfate _ _ h₄ hs₃
  · rintro answer s₂ ⟨hguarded, hs₂⟩
    refine .mono (safe_reject _ _ (I := fun s' => (answer = some parent → s'.Guarded) ∧ I s')
      fun _ h => ⟨fun hparent => Fate.guarded h (hguarded hparent), hfate _ _ h hs₂⟩) ?_
    exact fun r s' hr => hr.imp fun _ hr => ⟨hr.2.1 (bne_eq_false_iff_eq.mp hr.1), hr.2.2⟩

/-- The image is started with the signal armed, by its parent. -/
theorem pre_exec_safe {d : Pin.Disk} {descriptor : Fd} (hplainly : ∀ image,
      d.Holds descriptor image → image.st_mode &&& 0o6000 = 0 ∧ image.capability = [])
    (hs : s.Of parent) (hplain : s.Plain) :
    (birthLogic d).Safe (Post fun _ s' => s'.Guarded ∧ s'.Of parent)
      (pre_exec parent descriptor) s := by
  refine safe_bind (isolating_safe d (arm_safe _ _ (I := fun s => s.Of parent ∧ s.Plain)
    (fun _ h => h.1) (fun _ _ h hs => ⟨h.of hs.1, h.plain hs.2⟩) (fun _ h => h) ⟨hs, hplain⟩)) ?_
  rintro _ s₁ ⟨hguarded, hs₁, hplain⟩
  refine safe_orElse ?_
  intro s₂ h₂ r s₃ hmove
  refine ⟨trivial, fun s₄ h₄ => .of fun _ hr => ?_⟩
  subst hr
  obtain ⟨-, image, himage, hstarted⟩ := hmove
  obtain ⟨hmode, hcapability⟩ := hplainly image himage
  have hplain := Fate.plain h₂ hplain
  have hguarded := Fate.guarded h₂ hguarded
  have hof := Fate.of h₂ hs₁
  refine ⟨Fate.guarded h₄ ⟨?_, ?_⟩, Fate.of h₄ ⟨hstarted.parent.trans hof.1, ?_⟩⟩
  · rw [hstarted.death_signal hplain hmode hcapability]
    exact hguarded.1
  · rw [hstarted.alive, hstarted.reaper]
    exact hguarded.2
  · rw [hstarted.reaper]
    exact hof.2

/-! ## The worker's own program

A worker that lost its parent while the signal was disarmed fails at the second look. -/

/-- After the credentials are dropped the worker has its parent. -/
theorem give_up_inherited_safe (hs : s.Of parent) :
    isolationLogic.Safe (Post fun _ s' => s'.Guarded) (give_up_inherited parent) s := by
  -- Until the signal is armed again the identities may change.
  refine hs.after _ fun _ _ hkeep => ?_
  refine hkeep.after _ fun _ _ hambient => ?_
  refine hambient.after _ fun initial_users _ husers => ?_
  refine husers.after _ fun initial_groups _ hgroups => ?_
  refine hgroups.after (drop_credentials initial_users initial_groups) fun _ _ hdropped => ?_
  refine hdropped.after _ fun final_users _ husers => ?_
  refine husers.after _ fun final_groups _ hgroups => ?_
  refine hgroups.after (call (.setfsgid final_groups.effective)) fun _ _ hfsgid => ?_
  refine hfsgid.after (call (.setfsuid final_users.effective)) fun _ _ hfsuid => ?_
  refine safe_bind (arm_safe _ _ (fun _ => id) (fun _ _ => Fate.of) (fun _ => id) hfsuid) ?_
  rintro _ _ ⟨hguarded, -⟩
  refine hguarded.after ⟨trivial, fun _ => trivial⟩ fun _ _ hcapabilities => ?_
  refine hcapabilities.after ⟨trivial, fun _ => trivial⟩ fun _ _ hprivileges => ?_
  exact guarded_safe (Only.orElse ⟨trivial, fun _ => trivial⟩) hprivileges

/-- A worker that makes its report is guarded. -/
theorem enter_linux_wasix_worker_isolation_safe (W : Env) (hguarded : s.Guarded)
    (hs : s.Of parent) :
    isolationLogic.Safe (Post fun _ s' => s'.Guarded) (enter_linux_wasix_worker_isolation W) s := by
  -- The signal is armed, so the parent that answers is the one that spawned us.
  refine safe_bind (Q := fun answer s' => answer = some parent ∧ s'.Of parent) ?_ ?_
  · rintro s₁ h₁ _ s₂ ⟨halive, rfl, rfl⟩
    refine ⟨trivial, fun s₃ h₃ => ⟨?_, Fate.of h₃ (Fate.of h₁ hs)⟩⟩
    rw [Process.ppid, (Fate.guarded h₁ hguarded).2 halive, Option.getD_none, (Fate.of h₁ hs).1]
  rintro _ s₁ ⟨rfl, hs₁⟩
  show isolationLogic.Safe _ (close_inherited_worker_descriptors >>= _ : IsolationM _) s₁
  refine hs₁.after close_inherited_worker_descriptors fun closed _ hclosed => ?_
  refine hclosed.after (lower_worker_limit .Core _) fun core_file _ hcore => ?_
  refine hcore.after (lower_worker_limit .Fsize _) fun file_size _ hsize => ?_
  refine hsize.after (lower_worker_limit .As _) fun address_space _ hspace => ?_
  refine hspace.after (lower_worker_limit .Nofile _) fun open_file _ hfiles => ?_
  refine safe_bind (give_up_inherited_safe hfiles) fun _ _ hguarded => ?_
  -- What is left asks for the report.
  refine hguarded.after ⟨trivial, fun _ => trivial⟩ fun user_ids _ huser => ?_
  refine huser.after ⟨trivial, fun _ => trivial⟩ fun group_ids _ hgroup => ?_
  refine hgroup.after ⟨trivial, fun _ => trivial⟩ fun groups _ hgroups => ?_
  refine hgroups.after ⟨trivial, fun _ => trivial⟩ fun capabilities _ hcapabilities => ?_
  refine hcapabilities.after ⟨trivial, fun _ => trivial⟩ fun no_new_privileges _ hprivileges => ?_
  refine hprivileges.after ⟨trivial, fun _ => trivial⟩ fun dumpable _ hdumpable => ?_
  refine hdumpable.after ⟨trivial, fun _ => trivial⟩ fun ambient _ hambient => ?_
  exact guarded_safe trivial hambient

end Parts

/-- However the parent fares: a worker that is started from a pinned executable and reports itself
ready has the signal armed, and has its parent as long as it lives, then and from then on. -/
theorem ready_worker_has_parent (W : Env) (euid : UInt32) (path : String)
    (exe : PinnedWorkerExecutable) (d : Pin.Disk) (hpinned : Pin.Pinned W euid path exe d)
    (s : Process) (hborn : s.reaper = none) (hplain : s.Plain) :
    (birthLogic d).Safe (Monitor.Post fun _ s' => s'.Guarded) (born W s.parent exe.descriptor)
      s := by
  obtain ⟨-, _, _, -, -, ⟨node, hnode, himage⟩, hexecutable, hcapability, -⟩ := hpinned
  have hof : s.Of s.parent := by
    refine ⟨rfl, ?_⟩
    rw [hborn]
    exact (Option.some_ne_none _).symm
  refine Monitor.safe_bind (pre_exec_safe ?_ hof hplain) ?_
  · rintro _ ⟨node', hnode', himage'⟩
    obtain rfl := Option.some.inj (hnode.symm.trans hnode')
    obtain rfl := Option.some.inj (himage.symm.trans himage')
    refine ⟨?_, hcapability⟩
    -- Neither set-id bits nor write bits, so no set-id bits.
    have hmask : (0o6000 : UInt32) = 0o6022 &&& 0o6000 := by decide
    rw [hmask, ← UInt32.and_assoc, hexecutable.plain]
    exact UInt32.zero_and
  · rintro _ s₁ ⟨hguarded, hs₁⟩
    exact isolating_safe d (enter_linux_wasix_worker_isolation_safe W hguarded hs₁)

/-- An executable of root's, in the root directory. -/
def pinnedDisk : Pin.Disk where
  root := 1
  inodes
    | 1 => some ⟨0o040755, 0, [], fun name => if name = "worker" then some 2 else none, []⟩
    | 2 => some ⟨0o100755, 0, [127], fun _ => none, []⟩
    | _ => none
  descriptors descriptor := if descriptor = 9 then some 2 else none

theorem ready_worker_has_parent_root :
    (birthLogic pinnedDisk).Safe (Monitor.Post fun _ s' => s'.Guarded) (born sampleWorkerEnv 7 9)
      ⟨7, none, true, false, ⟨0, 0, 0⟩, ⟨0, 0, 0⟩⟩ :=
  ready_worker_has_parent sampleWorkerEnv 0 "/worker" ⟨9, "/worker", _⟩ pinnedDisk
    ⟨rfl, ["worker"], _, by decide, ⟨2, rfl, .through rfl ⟨by decide, by decide⟩ rfl (.here 2)⟩,
      ⟨2, rfl, rfl⟩, ⟨by decide, by decide, by decide, by decide, by decide⟩, rfl, rfl⟩
    ⟨7, none, true, false, ⟨0, 0, 0⟩, ⟨0, 0, 0⟩⟩ rfl ⟨rfl, rfl⟩

end WasmRuntime.Worker
