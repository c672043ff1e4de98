/-
`wasix_worker.rs`, the worker's process: a worker that finished or failed is contained.

`WorkerProcess` holds a child and a flag `active`. While the flag is set the handle is armed: its
drop kills the worker's process group and the leader. Once the leader has been waited for its number
may belong to another process, so from then on nothing may be sent to it, and `disarm` clears the
flag.

Two simplifications make the supervisors do more than they can. A future is interrupted before any
of its effects, not only where it waits. And every call may be answered in every way, except that
`active` is answered with the flag.
-/
import WasmRuntime.WorkerParent
import WasmRuntime.CaptureJournal

set_option autoImplicit false

namespace WasmRuntime.Worker

open Prog Monitor

/-! ## The handle

The history here is the handle itself (`Handle`): the signals that were sent through it, each with
the flag at the time, the last wait that returned, and whether the handle has been moved.
`Handle.allows` says when each method may be called, and the rest follows from it. -/

/-- What `SIGKILL` is sent to: the worker's process group, or its leader. -/
inductive Signal where
  | group
  | leader
  deriving DecidableEq

/-- `WorkerProcess` and what was done through it. -/
structure Handle where
  process_id : UInt32
  active : Bool
  signals : List (Signal × Bool)
  waited : Option (Except String ExitStatus)
  moved : Bool

/-- `WorkerProcess::new`. -/
def Handle.new (worker : WorkerProcess) : Handle := ⟨worker.process_id, true, [], none, false⟩

/-- A signal goes out. -/
def Handle.send (h : Handle) (s : Signal) : Handle :=
  { h with signals := h.signals ++ [(s, h.active)] }

/-- `WorkerProcess::kill_tree`. `Pid::from_raw` makes no identifier of 0. -/
def Handle.kill_tree (h : Handle) : Handle :=
  if h.active = false then h
  else if h.process_id = 0 then h
  else h.send .group

/-- A wait for the leader has returned. -/
def Handle.wait (h : Handle) (answer : Except String ExitStatus) : Handle :=
  { h with waited := some answer }

/-- `WorkerProcess::disarm`. -/
def Handle.disarm (h : Handle) : Handle := { h with active := false }

/-- What an effect and its answer do to the handle. `try_wait` without a status and a wait that
ran out of its 100 ms have not returned. -/
def Handle.after (h : Handle) : (op : ParentOp) → ParentAnswer op → Handle
  | .output .kill_tree, _ => h.kill_tree
  | .output .wait, answer => h.wait answer
  | .output .disarm, _ => h.disarm
  | .start_kill, _ => h.send .leader
  | .try_wait, .ok (some status) => h.wait (.ok status)
  | .wait_briefly, some answer => h.wait answer
  | .spawn_reaper, _ => { h with moved := true }
  | _, _ => h

/-- Any worker, any timing; the flag is what it is. -/
def handling : Monitor Handle ParentOp ParentAnswer where
  ok
    | h, .active, r => r = h.active
    | _, _, _ => True
  after := Handle.after

/-- The process group was killed by an armed handle. -/
def Handle.Killed (h : Handle) : Prop := (Signal.group, true) ∈ h.signals

/-- When a method of the handle may be called: while it has not been moved; the leader is killed
through an armed handle only; and the handle is disarmed once the group was killed and the leader
waited for. -/
def Handle.allows (h : Handle) : ParentOp → Prop
  | .output .kill_tree | .output .wait | .active | .try_wait | .wait_briefly => h.moved = false
  | .output .disarm => h.moved = false ∧ h.Killed ∧ h.waited.isSome = true
  | .start_kill => h.moved = false ∧ h.active = true
  | .spawn_reaper => h.moved = false ∧ h.Killed
  | _ => True

/-- What holds of a handle at any time. -/
structure Handle.Accounted (h : Handle) : Prop where
  process : h.process_id ≠ 0
  signals : ∀ s ∈ h.signals, s.2 = true
  disarmed : h.active = false → h.Killed ∧ h.waited.isSome = true
  moved : h.moved = true → h.Killed

/-! ## What the methods keep

`Accounted` is kept by every allowed call, so it holds wherever a program that keeps to `allows` has
come, the points included at which a timeout, a cancellation or a failure strikes. -/

section Methods

variable {h : Handle}

theorem Handle.Killed.send (hkilled : h.Killed) (s : Signal) : (h.send s).Killed :=
  List.mem_append_left _ hkilled

/-- Disarmed, it does nothing. -/
theorem Handle.kill_tree_disarmed (hactive : h.active = false) : h.kill_tree = h :=
  if_pos hactive

/-- Armed, it kills the group. -/
theorem Handle.kill_tree_armed (hactive : h.active = true) (hprocess : h.process_id ≠ 0) :
    h.kill_tree = h.send .group := by
  unfold Handle.kill_tree
  rw [if_neg (by rw [hactive]; decide), if_neg hprocess]

theorem Handle.kill_tree_active : h.kill_tree.active = h.active := by
  unfold Handle.kill_tree
  split_ifs <;> rfl

theorem Handle.kill_tree_moved : h.kill_tree.moved = h.moved := by
  unfold Handle.kill_tree
  split_ifs <;> rfl

/-- The group is killed by a signal to it. -/
theorem Handle.killed_by_group (hactive : h.active = true) : (h.send .group).Killed := by
  unfold Handle.Killed Handle.send
  rw [hactive]
  exact List.mem_append_right _ (List.mem_singleton_self _)

/-- A signal from an armed handle. -/
theorem Handle.Accounted.send (hh : h.Accounted) (hactive : h.active = true) (s : Signal) :
    (h.send s).Accounted where
  process := hh.process
  signals := by
    intro t ht
    rcases List.mem_append.mp ht with ht | ht
    · exact hh.signals t ht
    · rw [List.mem_singleton.mp ht]
      exact hactive
  disarmed := by
    intro hinactive
    have hcontra : true = false := hactive.symm.trans hinactive
    cases hcontra
  moved := fun hmoved => (hh.moved hmoved).send s

/-- `kill_tree` keeps the account. -/
theorem Handle.Accounted.kill_tree (hh : h.Accounted) : h.kill_tree.Accounted := by
  by_cases hactive : h.active = true
  · rw [Handle.kill_tree_armed hactive hh.process]
    exact hh.send hactive .group
  · rw [Handle.kill_tree_disarmed (by simpa using hactive)]
    exact hh

/-- So does a wait. -/
theorem Handle.Accounted.wait (hh : h.Accounted) (answer : Except String ExitStatus) :
    (h.wait answer).Accounted where
  process := hh.process
  signals := hh.signals
  disarmed := fun hinactive => ⟨(hh.disarmed hinactive).1, rfl⟩
  moved := hh.moved

/-- Every allowed call keeps the account. -/
theorem Handle.Accounted.after {op : ParentOp} (hh : h.Accounted) (hallows : h.allows op)
    (r : ParentAnswer op) : (h.after op r).Accounted := by
  cases op with
  | output op =>
    cases op with
    | kill_tree => exact hh.kill_tree
    | wait => exact hh.wait r
    | disarm => exact ⟨hh.process, hh.signals, fun _ => hallows.2, hh.moved⟩
    | read len => exact hh
    | try_reserve len => exact hh
  | start_kill => exact hh.send hallows.2 .leader
  | spawn_reaper => exact ⟨hh.process, hh.signals, hh.disarmed, fun _ => hallows.2⟩
  | try_wait =>
    rcases r with e | _ | status
    · exact hh
    · exact hh
    · exact hh.wait (.ok status)
  | wait_briefly =>
    rcases r with _ | answer
    · exact hh
    · exact hh.wait answer
  | _ => exact hh

end Methods

/-! ## Programs that leave the handle alone

Most of an operation, read off the programs' effects. -/

/-- Not a method of the handle. -/
def Aside : ParentOp → Prop
  | .output .kill_tree | .output .wait | .output .disarm => False
  | .active | .start_kill | .try_wait | .wait_briefly | .spawn_reaper => False
  | _ => True

/-- What is done with the worker's output before it ends. -/
def Collecting : OutputOp → Prop
  | .read _ | .try_reserve _ => True
  | .kill_tree | .wait | .disarm => False

variable {op : ParentOp} {h : Handle}

theorem Aside.allows (haside : Aside op) (h : Handle) : h.allows op := by
  cases op with
  | output op => cases op <;> first | exact haside.elim | exact trivial
  | active | start_kill | try_wait | wait_briefly | spawn_reaper => exact haside.elim
  | _ => exact trivial

theorem Aside.after (haside : Aside op) (h : Handle) (r : ParentAnswer op) : h.after op r = h := by
  cases op with
  | output op => cases op <;> first | exact haside.elim | exact rfl
  | active | start_kill | try_wait | wait_briefly | spawn_reaper => exact haside.elim
  | _ => exact rfl

theorem Collecting.aside {op : OutputOp} (h : Collecting op) : Aside (.output op) := by
  cases op with
  | read | try_reserve => exact trivial
  | kill_tree | wait | disarm => exact h.elim

section Only

variable (W : Env)

theorem output_only (op : OutputOp) (h : Collecting op) : Only Collecting (output op) :=
  ⟨h, fun _ => trivial⟩

theorem read_exact_loop_only (fuel missing : ℕ) (read : Bytes) :
    Only Collecting (read_exact_loop fuel missing read) := by
  induction fuel generalizing missing read with
  | zero => exact trivial
  | succ fuel ih =>
    unfold read_exact_loop
    by_cases hzero : missing = 0
    · rw [if_pos hzero]
      exact trivial
    · rw [if_neg hzero]
      apply Only.bindF (Only.orElse (output_only (.read missing) trivial))
      intro bytes
      apply Only.bindF (Only.reject _ _)
      intro _
      exact ih _ _

theorem read_length_prefixed_only (m : FrameMessages) (invalid : ℕ → Bool) :
    Only Collecting (read_length_prefixed W m invalid) := by
  unfold read_length_prefixed
  apply Only.bindF (Only.orElse (read_exact_loop_only 4 4 []))
  intro header
  apply Only.bindF (Only.reject _ _)
  intro _
  apply Only.bindF (Only.orElse (output_only (.try_reserve _) trivial))
  intro _
  exact Only.orElse (read_exact_loop_only _ _ _)

theorem piped_only {α : Type} {p : Prog OutputOp OutputAnswer α} (h : Only Collecting p) :
    Only Aside (piped p) := Only.lift (fun _ hop => hop.aside) h

theorem act_only (op : ParentOp) (haside : Aside op) : Only Aside (act op) :=
  ⟨haside, fun _ => trivial⟩

theorem run_only {ε : Type} (op : ParentOp) (haside : Aside op) :
    Only Aside (Fallible.run (act op) : ParentM ε (ParentAnswer op)) :=
  ⟨haside, fun _ => trivial⟩

theorem result_only {α : Type} (x : α) : Only Aside (.ret x : ParentProg α) := trivial

theorem compute_only {ε α : Type} (x : Exec ε α) : Only Aside (compute x) := by
  cases x with
  | ok v => exact trivial
  | err e => exact trivial
  | panic => exact ⟨trivial, fun r => r.elim⟩
  | div => exact ⟨trivial, fun r => r.elim⟩

theorem ok_or_only {ε α : Type} (e : ε) (o : Option α) :
    Only Aside (Fallible.ok_or e o : ParentM ε α) := by
  cases o <;> exact trivial

theorem accept_ready_only {ε : Type} (wrap : Error → ε) (process_id : UInt32) (build : String)
    (groups : List UInt32) : Only Aside (accept_ready W wrap process_id build groups) := by
  unfold accept_ready
  apply Only.bindF (Only.orElse (piped_only (read_length_prefixed_only W _ _)))
  intro ready
  apply Only.bindF (Only.orElse (result_only _))
  intro metadata
  apply Only.bindF (compute_only _)
  intro _
  exact trivial

theorem send_checkpoint_descriptor_only (patience : ℕ) (file : Fd) (marker : UInt8) :
    Only Aside (send_checkpoint_descriptor patience file marker) := by
  induction patience with
  | zero => exact ⟨trivial, fun r => r.elim⟩
  | succ patience ih =>
    unfold send_checkpoint_descriptor
    apply Only.bindF (Only.orElse (act_only .writable trivial))
    intro _
    apply Only.bindF (run_only (.sendmsg file marker) trivial)
    intro sending
    cases sending with
    | sent bytes => exact Only.reject _ _
    | would_block => exact ih
    | failed error => exact trivial

theorem write_control_frame_only (frame : Bytes) : Only Aside (write_control_frame frame) := by
  unfold write_control_frame
  apply Only.bindF (ok_or_only _ _)
  intro length
  apply Only.bindF (Only.orElse (act_only (.write_control _) trivial))
  intro _
  exact Only.orElse (act_only (.write_control _) trivial)

theorem authorize_only {ε : Type} (failure : ε) : Only Aside (authorize failure) := by
  unfold authorize
  apply Only.bindF (Only.orElse (act_only (.write_control _) trivial))
  intro _
  exact Only.orElse (act_only .shutdown_control trivial)

theorem prepare_checkpoint_restore_only (patience : ℕ) (process_id : UInt32) (build : String)
    (groups : List UInt32) (checkpoint : CheckpointRestoreInput) :
    Only Aside (prepare_checkpoint_restore W patience process_id build groups checkpoint) := by
  unfold prepare_checkpoint_restore
  apply Only.bindF (accept_ready_only W _ _ _ _)
  intro metadata
  apply Only.bindF (Only.orElse (send_checkpoint_descriptor_only _ _ _))
  intro _
  apply Only.bindF (Only.orElse (send_checkpoint_descriptor_only _ _ _))
  intro _
  apply Only.bindF (Only.orElse (piped_only (read_length_prefixed_only W _ _)))
  intro frame
  apply Only.bindF (Only.orElse (result_only _))
  intro acknowledgement
  apply Only.bindF (compute_only _)
  intro _
  apply Only.bindF (authorize_only _)
  intro _
  exact trivial

theorem prepare_checkpoint_capture_only (patience : ℕ) (process_id : UInt32) (build : String)
    (groups : List UInt32) (capture : CheckpointCaptureInput) :
    Only Aside (prepare_checkpoint_capture W patience process_id build groups capture) := by
  unfold prepare_checkpoint_capture
  apply Only.bindF (accept_ready_only W _ _ _ _)
  intro metadata
  apply Only.bindF (Only.orElse (send_checkpoint_descriptor_only _ _ _))
  intro _
  apply Only.bindF (Only.orElse (write_control_frame_only _))
  intro _
  apply Only.bindF (Only.orElse (piped_only (read_length_prefixed_only W _ _)))
  intro frame
  apply Only.bindF (Only.orElse (result_only _))
  intro acknowledgement
  apply Only.bindF (Only.reject _ _)
  intro _
  apply Only.bindF (authorize_only _)
  intro _
  apply Only.bindF (run_only .drop_control trivial)
  intro _
  exact trivial

end Only

/-! ## Inside an operation

The end of an output is read, the leader waited for, the group killed and the handle disarmed in one
place (`finish_output`). -/

/-- Inside an operation the handle is used as it may be, and not moved. -/
def Handle.keeps (h : Handle) (op : ParentOp) : Prop := h.allows op ∧ op ≠ .spawn_reaper

/-- What holds of a handle that has not been moved. -/
structure Handle.Held (h : Handle) : Prop extends h.Accounted where
  here : h.moved = false

theorem Handle.after_moved (hne : op ≠ .spawn_reaper) (r : ParentAnswer op) :
    (h.after op r).moved = h.moved := by
  cases op with
  | output op =>
    cases op with
    | kill_tree => exact Handle.kill_tree_moved
    | _ => rfl
  | spawn_reaper => exact absurd rfl hne
  | try_wait => rcases r with e | _ | status <;> rfl
  | wait_briefly => rcases r with _ | answer <;> rfl
  | _ => rfl

theorem Handle.Held.after (hh : h.Held) (hkeeps : h.keeps op) (r : ParentAnswer op) :
    (h.after op r).Held where
  toAccounted := hh.toAccounted.after hkeeps.1 r
  here := (Handle.after_moved hkeeps.2 r).trans hh.here

theorem Aside.keeps (haside : Aside op) (h : Handle) : h.keeps op := by
  refine ⟨haside.allows h, ?_⟩
  rintro rfl
  exact haside

theorem Handle.keeps_output {op : OutputOp} (hallows : h.allows (.output op)) :
    h.keeps (.output op) := by
  refine ⟨hallows, ?_⟩
  intro heq
  cases heq

/-- The part of the history that the output pipe's programs see. -/
def handling_output : Monitor Handle OutputOp OutputAnswer where
  ok _ _ _ := True
  after h op r := h.after (.output op) r

/-- Their part of the guard. -/
def Handle.keeps_pipe (h : Handle) (op : OutputOp) : Prop := h.keeps (.output op)

section Inside

variable {h : Handle}

open Monitor

/-- A program of such effects leaves the handle as it is. -/
theorem aside_upholds {α : Type} {p : ParentProg α} (hp : Only Aside p) :
    handling.Upholds Handle.keeps (fun _ h' => h = h') p h :=
  Upholds.of_only (fun h _ hop => hop.keeps h) (fun h _ r hop => hop.after h r) hp h

/-- The same for a program that may fail. -/
theorem aside_post {ε α : Type} {p : ParentM ε α} (hp : Only Aside p) :
    handling.Upholds Handle.keeps (Post fun _ h' => h = h') p h := by
  refine .mono (aside_upholds hp) ?_
  intro r h' hh'
  cases r with
  | ok a => exact hh'
  | error e => exact trivial

theorem collecting_upholds {α : Type} {p : Prog OutputOp OutputAnswer α}
    (hp : Only Collecting p) :
    handling_output.Upholds Handle.keeps_pipe (fun _ h' => h = h') p h :=
  Upholds.of_only (fun h _ hop => hop.aside.keeps h) (fun h _ r hop => hop.aside.after h r) hp h

theorem piped_keeps {α : Type} {p : Prog OutputOp OutputAnswer α} {Q : α → Handle → Prop}
    (hp : handling_output.Upholds Handle.keeps_pipe Q p h) :
    handling.Upholds Handle.keeps Q (piped p) h := by
  unfold piped
  refine .lift (fun h => h) ?_ ?_ ?_ ?_ hp
  · exact fun _ _ _ _ _ => trivial
  · exact fun _ _ _ _ => rfl
  · exact fun _ _ hop => hop
  · exact fun _ _ hQ => hQ

/-- An output that has come to its end leaves the handle disarmed: by then the leader has been
waited for and the group killed. -/
theorem finish_output_disarms {ε : Type} (f : FinishFailures ε) (hh : h.Held)
    (hactive : h.active = true) :
    handling_output.Upholds Handle.keeps_pipe (Post fun _ h' => h'.active = false)
      (finish_output f) h := by
  unfold finish_output
  refine .bindF (.orElse_any (collecting_upholds (output_only (.read 1) trivial))) ?_
  rintro trailing _ rfl
  refine .bindF (.reject _ _ _) ?_
  rintro _ _ ⟨rfl, -⟩
  refine .bindF (Q := fun status h' => h' = h.wait (.ok status))
    (.orElse (.perform (Handle.keeps_output hh.here) ?_)) ?_
  · intro r _
    cases r with
    | error e => exact trivial
    | ok status => exact rfl
  rintro status _ rfl
  -- The wait has not cleared the flag, so the group is still killed.
  have hkill : (h.wait (.ok status)).kill_tree = (h.wait (.ok status)).send .group :=
    Handle.kill_tree_armed hactive hh.process
  refine .bindF (Q := fun _ h' => h' = (h.wait (.ok status)).send .group)
    (.run (.perform (Handle.keeps_output hh.here) fun _ _ => hkill)) ?_
  rintro _ _ rfl
  refine .bindF (Q := fun _ h' => h'.active = false)
    (.run (.perform (Handle.keeps_output
      ⟨hh.here, Handle.killed_by_group hactive, rfl⟩) fun _ _ => rfl)) ?_
  -- A status that is no success is an error, but only after all of this.
  intro _ h' hdisarmed
  refine .monoF (.reject _ _ _) ?_
  rintro _ _ ⟨rfl, -⟩
  exact hdisarmed

variable (W : Env)

theorem read_restore_output_frame_only (stream : String) :
    Only Collecting (read_restore_output_frame W stream) := by
  unfold read_restore_output_frame
  exact read_length_prefixed_only W _ _

theorem collect_checkpoint_restore_output_only :
    Only Collecting (collect_checkpoint_restore_output W) := by
  unfold collect_checkpoint_restore_output
  apply Only.bindF (Only.orElse (read_length_prefixed_only W _ _))
  intro frame
  refine Only.bindF (Only.orElse ?_) ?_
  · exact trivial
  intro completion
  apply Only.bindF (Only.orElse (read_restore_output_frame_only W _))
  intro restored_stdout
  apply Only.bindF (Only.orElse (read_restore_output_frame_only W _))
  intro restored_stderr
  refine Only.bindF (Only.orElse ?_) ?_
  · exact trivial
  intro _
  exact trivial

/-- A restore that comes to its end. -/
theorem finish_checkpoint_restore_disarms (hh : h.Held) (hactive : h.active = true) :
    handling_output.Upholds Handle.keeps_pipe (Post fun _ h' => h'.active = false)
      (finish_checkpoint_restore W) h := by
  unfold finish_checkpoint_restore
  refine .bindF (Q := fun _ h' => h = h') ?_ ?_
  · refine .mono (collecting_upholds (collect_checkpoint_restore_output_only W)) ?_
    intro r h' hh'
    cases r with
    | ok a => exact hh'
    | error e => exact trivial
  rintro output _ rfl
  refine .bindF (.orElse (finish_output_disarms _ hh hactive)) ?_
  intro _ h' hdisarmed
  exact hdisarmed

/-- A capture that comes to its end. -/
theorem collect_checkpoint_capture_output_disarms (hh : h.Held) (hactive : h.active = true) :
    handling_output.Upholds Handle.keeps_pipe (Post fun _ h' => h'.active = false)
      (collect_checkpoint_capture_output W) h := by
  unfold collect_checkpoint_capture_output
  refine .bindF (.orElse_any
    (collecting_upholds (read_length_prefixed_only W _ _))) ?_
  rintro frame _ rfl
  refine .bindF (Q := fun _ h' => h = h') (.orElse_any rfl) ?_
  rintro completion _ rfl
  refine .bindF (.orElse_any
    (collecting_upholds (read_length_prefixed_only W _ _))) ?_
  rintro journal _ rfl
  refine .bindF (.orElse_any
    (collecting_upholds (read_length_prefixed_only W _ _))) ?_
  rintro captured_stdout _ rfl
  refine .bindF (.orElse_any
    (collecting_upholds (read_length_prefixed_only W _ _))) ?_
  rintro captured_stderr _ rfl
  refine .bindF (Q := fun _ h' => h = h') (.orElse_any rfl) ?_
  rintro _ _ rfl
  refine .bindF (finish_output_disarms _ hh hactive) ?_
  intro _ h' hdisarmed
  exact hdisarmed

/-- A probe. -/
theorem perform_handshake_disarms (worker : WorkerProcess) (groups : List UInt32) (hh : h.Held)
    (hactive : h.active = true) :
    handling.Upholds Handle.keeps (Post fun _ h' => h'.active = false)
      (perform_handshake W worker groups) h := by
  unfold perform_handshake
  refine .bindF (aside_post (accept_ready_only W _ _ _ _)) ?_
  rintro metadata _ rfl
  refine .bindF (piped_keeps (finish_output_disarms _ hh hactive)) ?_
  intro _ h' hdisarmed
  exact hdisarmed

/-- A transport probe. -/
theorem perform_checkpoint_transport_disarms (patience : ℕ) (worker : WorkerProcess)
    (groups : List UInt32) (checkpoint : CheckpointTransportInput) (hh : h.Held)
    (hactive : h.active = true) :
    handling.Upholds Handle.keeps (Post fun _ h' => h'.active = false)
      (perform_checkpoint_transport W patience worker groups checkpoint) h := by
  unfold perform_checkpoint_transport
  refine .bindF (aside_post (accept_ready_only W _ _ _ _)) ?_
  rintro metadata _ rfl
  refine .bindF (aside_post (send_checkpoint_descriptor_only _ _ _)) ?_
  rintro _ _ rfl
  refine .bindF (aside_post (run_only .drop_control trivial)) ?_
  rintro _ _ rfl
  refine .bindF (aside_post (piped_only (read_length_prefixed_only W _ _))) ?_
  rintro frame _ rfl
  refine .bindF (aside_post (Only.orElse (result_only _))) ?_
  rintro acknowledgement _ rfl
  refine .bindF (aside_post (compute_only _)) ?_
  rintro _ _ rfl
  refine .bindF (piped_keeps (finish_output_disarms _ hh hactive)) ?_
  intro _ h' hdisarmed
  exact hdisarmed

/-- A restore. -/
theorem perform_checkpoint_restore_disarms (patience : ℕ) (worker : WorkerProcess)
    (groups : List UInt32) (checkpoint : CheckpointRestoreInput) (hh : h.Held)
    (hactive : h.active = true) :
    handling.Upholds Handle.keeps (Post fun _ h' => h'.active = false)
      (perform_checkpoint_restore W patience worker groups checkpoint) h := by
  unfold perform_checkpoint_restore
  refine .bindF (aside_post (prepare_checkpoint_restore_only W _ _ _ _ _)) ?_
  rintro ⟨metadata, acknowledgement⟩ _ rfl
  refine .bindF (aside_post (run_only .drop_control trivial)) ?_
  rintro _ _ rfl
  refine .bindF (piped_keeps (finish_checkpoint_restore_disarms W hh hactive)) ?_
  intro _ h' hdisarmed
  exact hdisarmed

/-- A future that was dropped leaves the handle as it then was. -/
theorem interruptedBy_keeps {ε α : Type} {cause : Cause} {error : ε} {p : ParentM ε α}
    {Q : α → Handle → Prop} (hp : handling.Upholds Handle.keeps (Post Q) p h) :
    handling.Upholds Handle.keeps (Post Q) (interruptedBy cause error p) h := by
  have haside : Aside (.poll cause) := trivial
  exact interruptedBy_post (fun h => haside.keeps h) (fun _ _ => rfl) hp

/-- A capture, with its two timeouts. -/
theorem perform_checkpoint_capture_disarms (patience : ℕ) (worker : WorkerProcess)
    (groups : List UInt32) (handshake_timeout execution_timeout : ℕ)
    (capture : CheckpointCaptureInput) (hh : h.Held) (hactive : h.active = true) :
    handling.Upholds Handle.keeps (Post fun _ h' => h'.active = false)
      (perform_checkpoint_capture W patience worker groups handshake_timeout execution_timeout
        capture) h := by
  unfold perform_checkpoint_capture
  refine .bindF (interruptedBy_keeps (.orElse
    (aside_post (prepare_checkpoint_capture_only W _ _ _ _ _)))) ?_
  rintro ⟨metadata, acknowledgement⟩ _ rfl
  refine .bindF (interruptedBy_keeps (.orElse
    (piped_keeps (collect_checkpoint_capture_output_disarms W hh hactive)))) ?_
  rintro ⟨completion, journal, captured_stdout, captured_stderr⟩ h' hdisarmed
  refine .bindF (aside_post (compute_only _)) ?_
  rintro _ _ rfl
  exact hdisarmed

/-- What a supervisor is left with: a handle that has not been moved, disarmed if the operation
came to its end. -/
def Left {α : Type} (outcome : Except Error α) (h : Handle) : Prop :=
  h.Held ∧ ∀ a, outcome = .ok a → h.active = false

/-- An operation leaves what the supervisor's ending needs. -/
theorem left_by_operation {α : Type} {p : ParentM Error α} (hh : h.Held)
    (hp : handling.Upholds Handle.keeps (Post fun _ h' => h'.active = false) p h) :
    handling.Upholds Handle.allows Left p h := by
  have hstep : ∀ h op r, Handle.Held h → h.keeps op → handling.ok h op r →
      (handling.after h op r).Held := fun _ _ r hh hkeeps _ => hh.after hkeeps r
  have hheld := Upholds.keeping hstep hp hh
  refine .weaken (fun h op hkeeps => hkeeps.1) (fun _ _ _ hr => hr) rfl
    (.mono hheld ?_)
  rintro outcome h' ⟨hpost, hh'⟩
  refine ⟨hh', ?_⟩
  rintro a rfl
  exact hpost

end Inside

/-! ## The supervisors' endings

After a failure a restore and a capture kill and disarm in another order; a failed probe or
transport moves the handle into a task that waits and disarms. -/

/-- The drop of the field `child`, which was spawned with `kill_on_drop`: the leader is killed
unless its exit status was collected. -/
def Handle.drop_child (h : Handle) : Handle :=
  match h.waited with
  | some (.ok _) => h
  | _ => h.send .leader

/-- The worker is contained: the group was killed while the handle was armed, the leader has been
waited for, the handle is disarmed, and what is left of it sends nothing when it is dropped, if
the wait did not fail. -/
structure Handle.Contained (h : Handle) : Prop where
  killed : h.Killed
  waited : h.waited.isSome = true
  disarmed : h.active = false
  dropped : h.drop_child = h ∨ ∃ e, h.waited = some (.error e)

/-- A disarmed handle has done its work. -/
theorem Handle.Accounted.contained (hh : h.Accounted) (hinactive : h.active = false) :
    h.Contained := by
  obtain ⟨hkilled, hwaited⟩ := hh.disarmed hinactive
  refine ⟨hkilled, hwaited, hinactive, ?_⟩
  unfold Handle.drop_child
  cases hanswer : h.waited with
  | none =>
    rw [hanswer] at hwaited
    cases hwaited
  | some answer =>
    cases answer with
    | error e => exact .inr ⟨e, rfl⟩
    | ok status => exact .inl rfl

section Endings

variable {h : Handle}

open Monitor

theorem act_allowed (op : ParentOp) {Q : ParentAnswer op → Handle → Prop} (hallows : h.allows op)
    (hQ : ∀ r, handling.ok h op r → Q r (h.after op r)) :
    handling.Upholds Handle.allows Q (act op) h := ⟨hallows, hQ⟩

/-- `drop` leaves the flag as it is, and kills the leader only if it is set. -/
theorem drop_worker_allowed (hhere : h.moved = false) :
    handling.Upholds Handle.allows (fun _ h' => h'.active = h.active) drop_worker h := by
  unfold drop_worker
  refine .bind (Q := fun _ h' => h' = h.kill_tree)
    (act_allowed (.output .kill_tree) hhere fun _ _ => rfl) ?_
  rintro _ _ rfl
  have hhere' : h.kill_tree.moved = false := Handle.kill_tree_moved.trans hhere
  refine .bind (Q := fun active h' => active = h.kill_tree.active ∧ h' = h.kill_tree)
    (act_allowed .active hhere' fun _ hr => ⟨hr, rfl⟩) ?_
  rintro active _ ⟨hactive, rfl⟩
  by_cases hset : active = true
  · rw [if_pos hset]
    refine .bind (Q := fun _ h' => h' = h.kill_tree.send .leader)
      (act_allowed .start_kill ⟨hhere', hactive.symm.trans hset⟩ fun _ _ => rfl) ?_
    rintro _ _ rfl
    exact Handle.kill_tree_active
  · rw [if_neg hset]
    exact Handle.kill_tree_active

/-- The reaper is given a handle through which the group was killed. -/
theorem spawn_worker_reaper_allowed (hh : h.Held) (hactive : h.active = true) :
    handling.Upholds Handle.allows (fun _ h' => h'.moved = true) spawn_worker_reaper h := by
  unfold spawn_worker_reaper
  refine .bind (Q := fun _ h' => h' = h.send .group)
    (act_allowed (.output .kill_tree) hh.here
      fun _ _ => Handle.kill_tree_armed hactive hh.process) ?_
  rintro _ _ rfl
  refine .bind (Q := fun _ h' => h' = (h.send .group).send .leader)
    (act_allowed .start_kill ⟨hh.here, hactive⟩ fun _ _ => rfl) ?_
  rintro _ _ rfl
  exact act_allowed .spawn_reaper ⟨hh.here, (Handle.killed_by_group hactive).send .leader⟩
    fun _ _ => rfl

/-- The ending of a probe and of a transport. -/
theorem reap_failed_allowed {α : Type} {outcome : Except Error α} (hleft : Left outcome h) :
    handling.Upholds Handle.allows
      (fun r h' => h'.active = false ∨ ((∃ e, r = .error e) ∧ h'.moved = true))
      (reap_failed outcome) h := by
  obtain ⟨hh, hok⟩ := hleft
  cases outcome with
  | ok a =>
    refine .bindM (.runM (drop_worker_allowed hh.here)) ?_
    intro _ h' hdropped
    exact .inl (hdropped.trans (hok a rfl))
  | error error =>
    refine .bindM (.runM (Q := fun active h' => active = h.active ∧ h = h')
      (act_allowed .active hh.here fun _ hr => ⟨hr, rfl⟩)) ?_
    rintro active _ ⟨hactive, rfl⟩
    by_cases hset : active = true
    · rw [if_pos hset]
      refine .bindM
        (.runM (spawn_worker_reaper_allowed hh (hactive.symm.trans hset))) ?_
      intro _ h' hmoved
      exact .inr ⟨⟨error, rfl⟩, hmoved⟩
    · rw [if_neg hset]
      -- The operation had disarmed the handle itself before it failed.
      refine .bindM (.runM (drop_worker_allowed hh.here)) ?_
      intro _ h' hdropped
      rw [← hactive] at hdropped
      exact .inl (by simpa [hdropped] using hset)

/-- Looking for the worker's exit changes nothing but that the leader may have been waited for,
and an exit that was seen is a wait that returned. -/
theorem observe_failed_worker_exit_allowed (hhere : h.moved = false) :
    handling.Upholds Handle.allows
      (fun observed h' => h' = h ∧ observed = none ∨ ∃ answer, h' = h.wait answer)
      observe_failed_worker_exit h := by
  have hbriefly : handling.Upholds Handle.allows
      (fun observed h' => h' = h ∧ observed = none ∨ ∃ answer, h' = h.wait answer)
      (act .wait_briefly >>= fun waited => pure (waited.bind Except.toOption) :
        ParentProg (Option ExitStatus)) h := by
    refine .bind (Q := fun waited h' => h' = h.after .wait_briefly waited)
      (act_allowed .wait_briefly hhere fun _ _ => rfl) ?_
    rintro waited _ rfl
    cases waited with
    | none => exact .inl ⟨rfl, rfl⟩
    | some answer => exact .inr ⟨answer, rfl⟩
  unfold observe_failed_worker_exit
  refine .bind (Q := fun tried h' => h' = h.after .try_wait tried)
    (act_allowed .try_wait hhere fun _ _ => rfl) ?_
  rintro tried _ rfl
  rcases tried with e | _ | status
  · exact hbriefly
  · exact hbriefly
  · exact .inr ⟨.ok status, rfl⟩

/-- The ending of a failed restore or capture disarms the handle, after a wait that returned. -/
theorem kill_worker_allowed {observed : Option ExitStatus} (hh : h.Held) (hactive : h.active = true)
    (hobserved : observed.isNone = false → h.waited.isSome = true) :
    handling.Upholds Handle.allows (fun _ h' => h'.active = false ∧ h'.moved = false)
      (kill_worker observed) h := by
  unfold kill_worker
  have hkilled : (h.send .group).Killed := Handle.killed_by_group hactive
  refine .bind (Q := fun _ h' => h' = h.send .group)
    (act_allowed (.output .kill_tree) hh.here
      fun _ _ => Handle.kill_tree_armed hactive hh.process) ?_
  rintro _ _ rfl
  -- A leader that was seen to exit is not killed nor waited for again.
  by_cases hnone : observed.isNone = true
  · rw [if_pos hnone]
    refine .bind (Q := fun _ h' => h' = (h.send .group).send .leader)
      (act_allowed .start_kill ⟨hh.here, hactive⟩ fun _ _ => rfl) ?_
    rintro _ _ rfl
    refine .bind (Q := fun answer h' => h' = ((h.send .group).send .leader).wait answer)
      (act_allowed (.output .wait) hh.here fun _ _ => rfl) ?_
    rintro answer _ rfl
    exact act_allowed (.output .disarm) ⟨hh.here, hkilled.send .leader, rfl⟩
      fun _ _ => ⟨rfl, hh.here⟩
  · rw [if_neg hnone]
    exact act_allowed (.output .disarm) ⟨hh.here, hkilled, hobserved (Bool.eq_false_iff.mpr hnone)⟩
      fun _ _ => ⟨rfl, hh.here⟩

/-- Afterwards the handle is disarmed and still here. -/
theorem contain_worker_allowed (observe : Bool) (hh : h.Held) :
    handling.Upholds Handle.allows (fun _ h' => h'.active = false ∧ h'.moved = false)
      (contain_worker observe) h := by
  unfold contain_worker
  refine .bind (Q := fun active h' => active = h.active ∧ h = h')
    (act_allowed .active hh.here fun _ hr => ⟨hr, rfl⟩) ?_
  rintro active _ ⟨hactive, rfl⟩
  by_cases hset : active = true
  · rw [if_pos hset]
    have harmed : h.active = true := hactive.symm.trans hset
    refine .bind
      (Q := fun observed h' => h' = h ∧ observed = none ∨ ∃ answer, h' = h.wait answer) ?_ ?_
    · cases observe with
      | true => exact observe_failed_worker_exit_allowed hh.here
      | false => exact .inl ⟨rfl, rfl⟩
    rintro observed h' hobserved
    -- In both cases the handle is still held and armed.
    have hkill : handling.Upholds Handle.allows
        (fun _ h' => h'.active = false ∧ h'.moved = false) (kill_worker observed) h' := by
      rcases hobserved with ⟨rfl, rfl⟩ | ⟨answer, rfl⟩
      · exact kill_worker_allowed hh harmed fun hsome => absurd hsome (by decide)
      · exact kill_worker_allowed ⟨hh.toAccounted.wait answer, hh.here⟩ harmed fun _ => rfl
    refine .bind hkill ?_
    intro _ h'' hdisarmed
    exact hdisarmed
  · rw [if_neg hset]
    rw [hactive] at hset
    exact ⟨by simpa using hset, hh.here⟩

/-- The diagnostics leave the handle alone. -/
theorem diagnostics_allowed :
    handling.Upholds Handle.allows (fun _ h' => h = h') diagnostics h := by
  unfold diagnostics
  refine .bind (Q := fun _ h' => h = h')
    (act_allowed .join_diagnostics trivial fun _ _ => rfl) ?_
  rintro read _ rfl
  exact rfl

/-- The ending of a restore and of a capture that came to an end. -/
theorem conclude_finished_allowed {α : Type} (finish : WasixWorkerDiagnostics → α) (hh : h.Held)
    (hinactive : h.active = false) :
    handling.Upholds Handle.allows (fun _ h' => h'.active = false)
      (do
        let worker_diagnostics ← Fallible.run diagnostics
        Fallible.run drop_worker
        pure (finish worker_diagnostics) : ParentM Error α) h := by
  refine .bindM (.runM diagnostics_allowed) ?_
  rintro worker_diagnostics _ rfl
  refine .bindM (.runM (drop_worker_allowed hh.here)) ?_
  intro _ h' hdropped
  exact hdropped.trans hinactive

/-- The ending of a restore and of a capture that failed. -/
theorem conclude_failed_allowed {α : Type} (observe : Bool)
    (error : Option ExitStatus → WasixWorkerDiagnostics → Error) (hh : h.Held) :
    handling.Upholds Handle.allows (fun _ h' => h'.active = false)
      (do
        let observed ← Fallible.run (contain_worker observe)
        let worker_diagnostics ← Fallible.run diagnostics
        Fallible.run drop_worker
        Fallible.throw (error observed worker_diagnostics) : ParentM Error α) h := by
  refine .bindM (.runM (contain_worker_allowed observe hh)) ?_
  rintro observed h' ⟨hinactive, hhere⟩
  refine .bindM (.runM diagnostics_allowed) ?_
  rintro worker_diagnostics _ rfl
  refine .bindM (.runM (drop_worker_allowed hhere)) ?_
  intro _ h'' hdropped
  exact hdropped.trans hinactive

/-- A restore ends disarmed. -/
theorem conclude_restore_allowed {outcome : Except Error WasixCheckpointRestoreMetadata}
    (hleft : Left outcome h) :
    handling.Upholds Handle.allows (fun _ h' => h'.active = false) (conclude_restore outcome)
      h := by
  obtain ⟨hh, hok⟩ := hleft
  cases outcome with
  | ok metadata => exact conclude_finished_allowed _ hh (hok metadata rfl)
  | error error => exact conclude_failed_allowed _ (fun o read => restore_error o read error) hh

/-- A capture ends disarmed. -/
theorem conclude_capture_allowed {outcome : Except Error WasixCheckpointCapture}
    (hleft : Left outcome h) :
    handling.Upholds Handle.allows (fun _ h' => h'.active = false) (conclude_capture outcome)
      h := by
  obtain ⟨hh, hok⟩ := hleft
  cases outcome with
  | ok capture => exact conclude_finished_allowed (fun _ => capture) hh (hok capture rfl)
  | error error => exact conclude_failed_allowed _ (fun o read => capture_error o read error) hh

end Endings

/-! ## The reaper

The task that a handle was moved into. -/

/-- The task of `spawn_worker_reaper`, with the drop at its end. -/
def reap_worker : ParentProg Unit := do
  let _ ← act (.output .wait)
  act (.output .disarm)
  drop_worker

/-- The handle, in the task it was moved into. -/
def Handle.received (h : Handle) : Handle := { h with moved := false }

theorem Handle.Accounted.received (hh : h.Accounted) : h.received.Accounted where
  process := hh.process
  signals := hh.signals
  disarmed := hh.disarmed
  moved := fun hmoved => absurd hmoved (by simp [Handle.received])

/-- Every allowed call, by any answer, keeps the account. -/
theorem accounted_step (h : Handle) (op : ParentOp) (r : ParentAnswer op) (hh : h.Accounted)
    (hallows : h.allows op) (_ : handling.ok h op r) : (handling.after h op r).Accounted :=
  hh.after hallows r

/-- The task disarms the handle. -/
theorem reap_worker_allowed (hhere : h.moved = false) (hkilled : h.Killed) :
    handling.Upholds Handle.allows (fun _ h' => h'.active = false) reap_worker h := by
  unfold reap_worker
  refine .bind (Q := fun answer h' => h' = h.wait answer)
    (act_allowed (.output .wait) hhere fun _ _ => rfl) ?_
  rintro answer _ rfl
  refine .bind (Q := fun _ h' => h' = (h.wait answer).disarm)
    (act_allowed (.output .disarm) ⟨hhere, hkilled, rfl⟩ fun _ _ => rfl) ?_
  rintro _ _ rfl
  exact drop_worker_allowed hhere

/-- In every run of the program, from this handle on, signals go out through an armed handle
only, and `Q` holds at its end. -/
structure Orderly {α : Type} (p : ParentProg α) (h : Handle) (Q : α → Handle → Prop) : Prop where
  silent : ∀ p' h', handling.Comes p h p' h' → ∀ s ∈ h'.signals, s.2 = true
  final : ∀ a h', handling.Comes p h (.ret a) h' → Q a h'

/-- What a program upholds, all its runs do. -/
theorem Orderly.of_upholds {α : Type} {p : ParentProg α} {Q Q' : α → Handle → Prop}
    (hp : handling.Upholds Handle.allows Q p h) (hh : h.Accounted)
    (himp : ∀ a h', h'.Accounted → Q a h' → Q' a h') : Orderly p h Q' where
  silent := fun _ _ hcomes => (hcomes.keeping accounted_step hp hh).signals
  final := fun a h' hcomes =>
    himp a h' (hcomes.keeping accounted_step hp hh) (hp.comes hcomes)

/-- The handle is with a task that will contain the worker: the group was killed, and whatever
comes of the task's wait, the worker is contained when the task ends. -/
structure Handle.Handed (h : Handle) : Prop where
  killed : h.Killed
  reaped : Orderly reap_worker h.received fun _ h' => h'.Contained

theorem Handle.Accounted.handed (hh : h.Accounted) (hmoved : h.moved = true) :
    h.Handed where
  killed := hh.moved hmoved
  reaped := Orderly.of_upholds (reap_worker_allowed rfl (hh.moved hmoved)) hh.received
    fun _ _ hh' hinactive => hh'.contained hinactive

/-! ## Containment

All four supervisors, from a new handle. -/

/-- What a probe and a transport end with: a contained worker, or an error and a worker in the
hands of a reaper. -/
def Reaped {α : Type} (r : Except Error α) (h : Handle) : Prop :=
  h.Contained ∨ ((∃ e, r = .error e) ∧ h.Handed)

theorem Handle.held_new {worker : WorkerProcess} (hprocess : worker.process_id ≠ 0) :
    (Handle.new worker).Held where
  process := hprocess
  signals := fun _ hs => absurd hs List.not_mem_nil
  disarmed := fun hinactive => absurd hinactive (by simp [Handle.new])
  moved := fun hmoved => absurd hmoved (by simp [Handle.new])
  here := rfl

/-- Failed and finished workers are contained. Whatever the worker does, and wherever a timeout, a
cancellation or a failure strikes, no signal goes out through a disarmed handle; and when the
outcome of a supervisor is there, the process group was killed through the armed handle, the
leader has been waited for and the handle is disarmed, or, after a failed probe or transport, all
of this is what the reaper comes to that has the handle. -/
theorem workers_contained (W : Env) (worker : WorkerProcess) (hprocess : worker.process_id ≠ 0) :
    (∀ handshake_timeout groups,
      Orderly (supervise_probe W worker handshake_timeout groups) (.new worker) Reaped) ∧
    (∀ patience handshake_timeout groups checkpoint,
      Orderly (supervise_checkpoint_transport W patience worker handshake_timeout groups checkpoint)
        (.new worker) Reaped) ∧
    (∀ patience handshake_timeout groups checkpoint,
      Orderly (supervise_checkpoint_restore W patience worker handshake_timeout groups checkpoint)
        (.new worker) fun _ h => h.Contained) ∧
    (∀ patience handshake_timeout execution_timeout groups capture,
      Orderly (supervise_checkpoint_capture W patience worker handshake_timeout execution_timeout
        groups capture) (.new worker) fun _ h => h.Contained) := by
  have hh : (Handle.new worker).Held := Handle.held_new hprocess
  have hreaped : ∀ {α : Type} (r : Except Error α) (h : Handle), h.Accounted →
      (h.active = false ∨ ((∃ e, r = .error e) ∧ h.moved = true)) → Reaped r h := by
    rintro α r h hh' (hinactive | ⟨herror, hmoved⟩)
    · exact .inl (hh'.contained hinactive)
    · exact .inr ⟨herror, hh'.handed hmoved⟩
  refine ⟨?_, ?_, ?_, ?_⟩
  · intro handshake_timeout groups
    -- The operation may be stopped before any of its effects, and the ending starts from there.
    refine Orderly.of_upholds (.bind (left_by_operation hh ?_)
      fun _ _ hleft => reap_failed_allowed hleft) hh.toAccounted hreaped
    exact interruptedBy_keeps (interruptedBy_keeps (perform_handshake_disarms W _ _ hh rfl))
  · intro patience handshake_timeout groups checkpoint
    refine Orderly.of_upholds (.bind (left_by_operation hh ?_)
      fun _ _ hleft => reap_failed_allowed hleft) hh.toAccounted hreaped
    exact interruptedBy_keeps
      (interruptedBy_keeps (perform_checkpoint_transport_disarms W _ _ _ _ hh rfl))
  · intro patience handshake_timeout groups checkpoint
    refine Orderly.of_upholds (.bind (left_by_operation hh ?_)
      fun _ _ hleft => conclude_restore_allowed hleft) hh.toAccounted
      fun _ _ hh' hinactive => hh'.contained hinactive
    exact interruptedBy_keeps (interruptedBy_keeps
      (.orElse (perform_checkpoint_restore_disarms W _ _ _ _ hh rfl)))
  · intro patience handshake_timeout execution_timeout groups capture
    refine Orderly.of_upholds (.bind (left_by_operation hh ?_)
      fun _ _ hleft => conclude_capture_allowed hleft) hh.toAccounted
      fun _ _ hh' hinactive => hh'.contained hinactive
    exact interruptedBy_keeps (interruptedBy_keeps
      (.orElse (perform_checkpoint_capture_disarms W _ _ _ _ _ _ hh rfl)))

/-- A worker and the input of a restore. -/
def sampleProcess : WorkerProcess := ⟨4242, ""⟩

/-- The input that the worker is not given any more. -/
def sampleRestoreInput : CheckpointRestoreInput :=
  ⟨3, 4, ⟨Checkpoint.sampleBinding, 1, "", 1, ""⟩⟩

/-- The caller gives up at once: the probe's worker goes to a reaper, and the restore's, which has
exited by then, is contained. -/
theorem workers_contained_dropped :
    (∃ h, handling.Comes (supervise_probe sampleWorkerEnv sampleProcess 1000 [])
        (.new sampleProcess) (.ret (.error .Cancelled)) h ∧
      h.Handed) ∧
    (∃ h, handling.Comes
        (supervise_checkpoint_restore sampleWorkerEnv 1 sampleProcess 1000 [] sampleRestoreInput)
        (.new sampleProcess) (.ret (.error .Cancelled)) h ∧
      h.Contained) := by
  obtain ⟨hprobe, -, hrestore, -⟩ := workers_contained sampleWorkerEnv sampleProcess (by decide)
  constructor
  · have hrun : ∃ h, handling.Comes (supervise_probe sampleWorkerEnv sampleProcess 1000 [])
        (.new sampleProcess) (.ret (.error .Cancelled)) h ∧ h.active = true := by
      -- Dropped; armed; the group and the leader are killed; the reaper is spawned.
      unfold supervise_probe interruptedBy
      exact ⟨_, .vis (r := true) trivial (.vis (r := true) rfl (.vis (r := ()) trivial
        (.vis (r := .ok ()) trivial (.vis (r := ()) trivial (.here _ _))))), rfl⟩
    obtain ⟨h, hcomes, hactive⟩ := hrun
    rcases (hprobe 1000 []).final _ h hcomes with hcontained | ⟨-, hhanded⟩
    · have hcontra : true = false := hactive.symm.trans hcontained.disarmed
      cases hcontra
    · exact ⟨h, hcomes, hhanded⟩
  · have hrun : ∃ h, handling.Comes
        (supervise_checkpoint_restore sampleWorkerEnv 1 sampleProcess 1000 [] sampleRestoreInput)
        (.new sampleProcess) (.ret (.error .Cancelled)) h := by
      -- Dropped; armed; the exit is seen; killed and disarmed; the diagnostics; the drop.
      unfold supervise_checkpoint_restore interruptedBy
      exact ⟨_, .vis (r := true) trivial (.vis (r := true) rfl
        (.vis (r := .ok (some (.exited 0))) trivial (.vis (r := ()) trivial (.vis (r := ()) trivial
          (.vis (r := none) trivial (.vis (r := ()) trivial (.vis (r := false) rfl
            (.here _ _))))))))⟩
    obtain ⟨h, hcomes⟩ := hrun
    exact ⟨h, hcomes, (hrestore 1 1000 [] sampleRestoreInput).final _ h hcomes⟩

end WasmRuntime.Worker
