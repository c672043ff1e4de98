/-
`wasix_worker.rs`, both sides of a restore and of a capture.

The parent's program (`WorkerParent`) and the worker's (`WorkerChild`) are joined by the control
socket, by the pipe on the worker's standard output and by the sealed files. They run at any speed
and may stop anywhere: a crash, a timeout or a cancellation of one side is a run in which it takes
its way out or makes no more steps. `ParentFailClosed` says what the parent does against any worker,
`WorkerChild` what the worker does against any parent.
-/
import Mathlib.Data.List.Forall2
import WasmRuntime.Meeting
import WasmRuntime.Codes
import WasmRuntime.ParentFailClosed
import WasmRuntime.WorkerChild

set_option autoImplicit false

namespace WasmRuntime.Worker

open ByteCodec Prog Checkpoint

/-! ## What lies between the two sides

A message is on its way as long as it is in the history of the side that sent it and not in that of
the other. -/

/-- What the files hold that can no longer change. -/
def settled (files : Files) (file : Fd) : Option Bytes :=
  (files file).bind fun f => if fullySealed f.seals then some f.content else none

/-- A byte as it was taken and as it was sent. A descriptor that comes with it is the one it was
sent with. -/
def Carries (got put : Parcel) : Prop :=
  got.1 = put.1 ∧ ∀ file, got.2 = some file → put.2 = some file

/-- What was taken is a beginning of what was sent. -/
def Arrived (taken sent : List Parcel) : Prop :=
  ∃ front, front <+: sent ∧ List.Forall₂ Carries taken front

/-- The pipe delivers what the worker has written, the socket what the parent has sent, and a sealed
file has one content for both. The socket may come to its end at any time: with the parent, or when
the parent closes it. -/
def channels : Meeting Dealings ParentOp ParentAnswer Served ChildOp ChildAnswer where
  left := dealing
  right := ⟨fun _ _ _ => True, Served.after⟩
  leftOk d t op r := (d.after op r).heard.stream <+: t.written
  rightOk d t op r := (serving (settled d.files)).ok t op r ∧ Arrived (t.after op r).taken d.sent

theorem Sealed.settled {files : Files} {file : Fd} {content : Bytes}
    (h : Sealed files file content) : settled files file = some content := by
  have hseals : fullySealed REQUIRED_CHECKPOINT_SEALS = true := by decide
  rw [Worker.settled, h, Option.bind_some, if_pos hseals]

/-! ## What was taken and what was sent

Bytes arrive in order, and a descriptor with the byte it was sent with. -/

/-- What has arrived has, whatever is sent later. -/
theorem Arrived.mono {taken sent sent' : List Parcel} (h : Arrived taken sent)
    (hsent : sent <+: sent') : Arrived taken sent' := by
  obtain ⟨front, hfront, hcarries⟩ := h
  exact ⟨front, hfront.trans hsent, hcarries⟩

theorem Arrived.ne_nil {taken sent : List Parcel} (h : Arrived taken sent) (hne : taken ≠ []) :
    sent ≠ [] := by
  rintro rfl
  obtain ⟨front, hfront, hcarries⟩ := h
  obtain rfl := List.prefix_nil.mp hfront
  exact hne (List.forall₂_nil_right_iff.mp hcarries)

/-- The bytes that were taken were sent in this order. -/
theorem Arrived.bytes {taken sent : List Parcel} (h : Arrived taken sent) :
    taken.map Prod.fst <+: sent.map Prod.fst := by
  obtain ⟨front, hfront, hcarries⟩ := h
  have hbytes : taken.map Prod.fst = front.map Prod.fst := by
    rw [← List.forall₂_eq_eq_eq, List.forall₂_map_left_iff, List.forall₂_map_right_iff]
    exact hcarries.imp fun _ _ hcarry => hcarry.1
  rw [hbytes]
  exact hfront.map Prod.fst

theorem plainly_bytes (bytes : Bytes) : (plainly bytes).map Prod.fst = bytes := by
  rw [plainly, List.map_map]
  exact List.map_id bytes

/-- A descriptor that was taken first was sent first. -/
theorem Arrived.head {marker : UInt8} {file : Fd} {rest sent : List Parcel}
    (h : Arrived ((marker, some file) :: rest) sent) : ∃ more, sent = (marker, some file) :: more ∧
      Arrived rest more := by
  obtain ⟨front, ⟨more, rfl⟩, hcarries⟩ := h
  obtain ⟨⟨byte, descriptor⟩, front, ⟨hbyte, hfile⟩, hrest, rfl⟩ :=
    List.forall₂_cons_left_iff.mp hcarries
  obtain rfl : marker = byte := hbyte
  obtain rfl : descriptor = some file := hfile file rfl
  exact ⟨front ++ more, rfl, front, List.prefix_append _ _, hrest⟩

/-- A stream begins with one frame only. -/
theorem frame_unique {text text' stream : Bytes} (h : frame text <+: stream)
    (h' : frame text' <+: stream) (hsize : text.length ≤ u32_max)
    (hsize' : text'.length ≤ u32_max) : text = text' := by
  have hpow : u32_max < 256 ^ 4 := by decide
  obtain ⟨rest, hrest⟩ := h
  obtain ⟨rest', hrest'⟩ := h'
  have hsame : frame text ++ rest = frame text' ++ rest' := hrest.trans hrest'.symm
  exact (Codes.selfDelimiting_bytes 4 text (Nat.lt_of_le_of_lt hsize hpow) text'
    (Nat.lt_of_le_of_lt hsize' hpow) rest rest' hsame).1

/-! ## What the parent has sent

Nothing, a beginning of the inputs, or all of them and the authorization. A worker that executes a
guest has taken more than the inputs, so it is the third. -/

section Parent

variable {W : Env} {T : Terms} {d : Dealings}

/-- The parent has authorized the execution: it has a worker whose Ready frame passed and who has
acknowledged the inputs. More may have been heard since. -/
def Terms.Authorized (W : Env) (T : Terms) (d : Dealings) : Prop :=
  ∃ command process_id text metadata acknowledgement, T.Hired command process_id d ∧
    T.ReadyText W command process_id text metadata ∧ T.acknowledges acknowledgement ∧
    frame text ++ frame acknowledgement <+: d.heard.stream

/-- Nothing was sent, a beginning of the inputs, or all of them and then the authorization. -/
def Terms.Sent (W : Env) (T : Terms) (d : Dealings) : Prop :=
  d.sent = [] ∨ ∃ inputs, T.inputs d.files inputs ∧
    (d.sent <+: inputs ∨ T.Authorized W d ∧ inputs ++ plainly [69] <+: d.sent)

theorem Terms.Acknowledged.authorized (h : T.Acknowledged W d) (sent : List Parcel) :
    T.Authorized W (d.said sent d.heard) := by
  obtain ⟨command, process_id, text, metadata, acknowledgement, hired, htext, -, hack, hstream⟩ := h
  refine ⟨command, process_id, text, metadata, acknowledgement, hired.said _ _, htext, hack, ?_⟩
  exact hstream ▸ List.prefix_refl _

theorem Terms.Authorized.hears (h : T.Authorized W d) {heard : Heard}
    (hstream : d.heard.stream <+: heard.stream) : T.Authorized W (d.said d.sent heard) := by
  obtain ⟨command, process_id, text, metadata, acknowledgement, hired, htext, hack, hheard⟩ := h
  exact ⟨command, process_id, text, metadata, acknowledgement, hired.said _ _, htext, hack,
    hheard.trans hstream⟩

/-- What was heard stays heard. -/
theorem Heard.stream_after (h : Heard) (op : OutputOp) (r : OutputAnswer op) :
    h.stream <+: (h.after op r).stream := by
  cases op with
  | read len =>
    cases r with
    | error e => exact List.prefix_refl _
    | ok bytes => exact List.prefix_append _ _
  | wait => cases r <;> exact List.prefix_refl _
  | try_reserve len => exact List.prefix_refl _
  | kill_tree => exact List.prefix_refl _
  | disarm => exact List.prefix_refl _

/-- What was sent stays sent. -/
theorem Dealings.sent_after (d : Dealings) (op : ParentOp) (r : ParentAnswer op) :
    d.sent <+: (d.after op r).sent := by
  cases op with
  | pin path => cases r <;> exact List.prefix_refl _
  | spawn command => rcases r with e | _ | process_id <;> exact List.prefix_refl _
  | place process_id operation => cases r <;> exact List.prefix_refl _
  | sendmsg file marker =>
    rcases r with (_ | _ | n) | _ | _
    · exact List.prefix_refl _
    · exact List.prefix_append _ _
    · exact List.prefix_refl _
    · exact List.prefix_refl _
    · exact List.prefix_refl _
  | write_control bytes => exact List.prefix_append _ _
  | _ => exact List.prefix_refl _

/-- Once something was sent, the parent makes no more files. -/
theorem Terms.guard_files {op : ParentOp} (hguard : T.guard W d op) (hsent : d.sent ≠ [])
    (r : ParentAnswer op) : (d.after op r).files = d.files := by
  cases op with
  | input op => exact absurd hguard hsent
  | pin path => exact absurd hguard hsent
  | spawn command => exact absurd hguard hsent
  | place process_id operation => exact absurd hguard hsent
  | sendmsg file marker => rcases r with (_ | _ | n) | _ | _ <;> exact rfl
  | _ => exact rfl

/-- Every effect that the terms allow keeps to the order of sending. -/
theorem Terms.Sent.step (h : T.Sent W d) {op : ParentOp} (hguard : T.guard W d op)
    (r : ParentAnswer op) : T.Sent W (d.after op r) := by
  cases op with
  | input op => exact .inl hguard
  | pin path => exact .inl (by cases r <;> exact hguard)
  | spawn command => exact .inl (by rcases r with e | _ | process_id <;> exact hguard)
  | place process_id operation => exact .inl (by cases r <;> exact hguard)
  | output op =>
    -- The parent hears more, and what it has sent stays as it is.
    rcases h with hnil | ⟨inputs, hinputs, hsent | ⟨hauth, hsent⟩⟩
    · exact .inl hnil
    · exact .inr ⟨inputs, hinputs, .inl hsent⟩
    · exact .inr ⟨inputs, hinputs, .inr ⟨hauth.hears (Heard.stream_after _ _ _), hsent⟩⟩
  | sendmsg file marker =>
    rcases r with (_ | _ | n) | _ | _
    · exact h
    · obtain ⟨inputs, hinputs, hsent⟩ := hguard.2
      exact .inr ⟨inputs, hinputs, .inl hsent⟩
    · exact h
    · exact h
    · exact h
  | write_control bytes =>
    by_cases hbytes : bytes = [69]
    · rw [Terms.guard, if_pos hbytes] at hguard
      subst hbytes
      exact .inr ⟨d.sent, hguard.2, .inr ⟨hguard.1.authorized _, List.prefix_refl _⟩⟩
    · rw [Terms.guard, if_neg hbytes] at hguard
      obtain ⟨inputs, hinputs, hsent⟩ := hguard.2
      exact .inr ⟨inputs, hinputs, .inl hsent⟩
  | _ => exact h

end Parent

/-! ## The two histories

In every run the worker has taken a beginning of what the parent has sent, and the parent has heard
a beginning of what the worker has written. -/

section Histories

variable {W : Env} {T : Terms} {α β : Type} {p p' : ParentM Error α} {q q' : ChildM β}
  {Q : Except Error α → Dealings → Prop} {files : Files} {d : Dealings} {t : Served}

/-- What the worker has written stays written. -/
theorem Served.written_after (t : Served) (op : ChildOp) (r : ChildAnswer op) :
    t.written <+: (t.after op r).written := by
  cases op with
  | writer op =>
    cases op with
    | write_all bytes => exact List.prefix_append _ _
    | flush => exact List.prefix_refl _
  | recvmsg =>
    cases r with
    | error e => exact List.prefix_refl _
    | ok message =>
      rw [Served.after]
      split_ifs <;> exact List.prefix_refl _
  | read len =>
    cases r with
    | error e => exact List.prefix_refl _
    | ok bytes =>
      rw [Served.after]
      split_ifs <;> exact List.prefix_refl _
  | _ => exact List.prefix_refl _

/-- What relates the two histories. -/
structure Related (W : Env) (T : Terms) (d : Dealings) (t : Served) : Prop where
  sent : T.Sent W d
  arrived : Arrived t.taken d.sent
  heard : d.heard.stream <+: t.written

/-- In every run, against any worker. -/
theorem channels_invariant (hparent : dealing.Upholds (T.guard W) Q p (.start files))
    (hreach : channels.Reaches p (.start files) q .start p' d q' t) : Related W T d t := by
  have hany : channels.right.Upholds (fun _ _ => True) (fun _ _ => True) q .start :=
    Monitor.Upholds.free (fun _ _ => trivial) (fun _ _ => trivial) _ _
  refine hreach.invariant (I := Related W T) hparent hany ?_ ?_ ?_
  · exact ⟨.inl rfl, ⟨[], List.prefix_refl _, .nil⟩, List.prefix_refl _⟩
  · intro d t op r h hguard hmeet
    exact ⟨h.sent.step hguard r, h.arrived.mono (d.sent_after op r), hmeet⟩
  · intro d t op r h _ hmeet
    exact ⟨h.sent, hmeet.2, h.heard.trans (t.written_after op r)⟩

/-- The worker reads sealed files only after the parent has made the last one, so what it finds in
them is what they hold at the end. -/
theorem channels_guarded (hparent : dealing.Upholds (T.guard W) Q p (.start files))
    {Q' : Except String β → Served → Prop}
    (hchild : ∀ image, (serving image).Upholds (Served.guard W image) Q' q .start)
    {op : ChildOp} {rest : ChildAnswer op → ChildM β}
    (hreach : channels.Reaches p (.start files) q .start p' d (.vis op rest) t) :
    t.guard W (settled d.files) op := by
  -- The child is judged by the files as they are in the end: no file changes once sent.
  refine (hreach.upholds_right_of (N := serving (settled d.files)) (I := Related W T)
    (K := fun e => e.sent ≠ [] → settled e.files = settled d.files) hparent (hchild _) rfl ?_ ?_ ?_
    fun _ => rfl).1
  · intro p' d q' t hreach
    exact channels_invariant hparent hreach
  · intro e op r hguard hafter hsent
    rw [← Terms.guard_files hguard hsent r]
    refine hafter ?_
    intro hnil
    exact hsent (List.prefix_nil.mp (hnil ▸ e.sent_after op r))
  · intro e t op r h hknown hguard hmeet
    cases op with
    | input op =>
      rw [← hknown (h.arrived.ne_nil hguard)]
      exact hmeet.1
    | _ => exact trivial

end Histories

/-! ## Agreement

Where a worker executes a guest, both histories are known well enough to compare them. -/

/-- The parent had its worker placed and has accepted the Ready frame that this worker has
written. -/
def Terms.Trusts (W : Env) (T : Terms) (d : Dealings) (t : Served) : Prop :=
  ∃ command process_id metadata isolation worker_build_sha256 worker_id,
    T.Hired command process_id d ∧
    T.ReadyText W command process_id (ready_text isolation worker_build_sha256 worker_id) metadata ∧
    frame (ready_text isolation worker_build_sha256 worker_id) <+: d.heard.stream ∧
    frame (ready_text isolation worker_build_sha256 worker_id) <+: t.written

section Agreement

variable {W : Env} {d : Dealings} {t : Served} {config : WasixWorkerConfig} {module : Bytes}

/-- The parent that authorized the execution did so on this worker's Ready frame. -/
theorem Related.trusts {T : Terms} (h : Related W T d t) (hauth : T.Authorized W d)
    {inputs : List Parcel} (hserved : t.Authorized inputs) : T.Trusts W d t := by
  have hmax : MAX_HANDSHAKE_BYTES ≤ u32_max := by decide
  obtain ⟨command, process_id, text, metadata, acknowledgement, hired, htext, -, hstream⟩ := hauth
  obtain ⟨isolation, build, worker_id, written, hshort, hwritten⟩ := hserved.reported
  have hheard : frame text <+: d.heard.stream := (List.prefix_append _ _).trans hstream
  have hwrote : frame (ready_text isolation build worker_id) <+: t.written := by
    rw [hwritten]
    exact List.prefix_append _ _
  obtain rfl := frame_unique (hheard.trans h.heard) hwrote (htext.short.2.trans hmax)
    (hshort.trans hmax)
  exact ⟨command, process_id, metadata, isolation, build, worker_id, hired, htext, hheard, hwrote⟩

/-- Two descriptors and a byte were taken, so the parent has sent its two inputs and the
authorization. -/
theorem restore_arrived {checkpoint : VerifiedWasixCheckpoint} {file journal : Fd}
    (hsent : (restoreTerms W config checkpoint module).Sent W d)
    (harrived : Arrived ([(77, some file), (67, some journal)] ++ plainly [69]) d.sent) :
    (restoreTerms W config checkpoint module).Authorized W d ∧ Sealed d.files file module ∧
      Sealed d.files journal (journal_of checkpoint) := by
  obtain ⟨_, hfirst, hrest⟩ := harrived.head
  obtain ⟨more, rfl, hbyte⟩ := hrest.head
  have hmore : more ≠ [] := hbyte.ne_nil (List.cons_ne_nil _ _)
  rcases hsent with hnil | ⟨_, ⟨f, f', hf, hf', rfl⟩, hsent | ⟨hauth, hsent⟩⟩
  · rw [hfirst] at hnil
    cases hnil
  · rw [hfirst, List.cons_prefix_cons, List.cons_prefix_cons] at hsent
    exact absurd (List.prefix_nil.mp hsent.2.2) hmore
  · rw [hfirst, List.cons_append, List.cons_append, List.cons_prefix_cons,
      List.cons_prefix_cons] at hsent
    obtain rfl : f = file := Option.some.inj (Prod.mk.inj hsent.1).2
    obtain rfl : f' = journal := Option.some.inj (Prod.mk.inj hsent.2.1).2
    exact ⟨hauth, hf, hf'⟩

/-- A descriptor, a frame and a byte were taken, so the parent has sent its module, its request and
the authorization: the frame tells where the request ends. -/
theorem capture_arrived {binding : WasixCheckpointBinding} {request text : Bytes} {file : Fd}
    (hrequest : request.length ≤ u32_max) (htext : text.length ≤ u32_max)
    (hsent : (captureTerms W config binding module request).Sent W d)
    (harrived : Arrived ([(77, some file)] ++ plainly (frame text) ++ plainly [69]) d.sent) :
    (captureTerms W config binding module request).Authorized W d ∧ Sealed d.files file module ∧
      text = request := by
  rw [List.append_assoc] at harrived
  obtain ⟨more, hfirst, hrest⟩ := harrived.head
  have hbytes : frame text ++ [69] <+: more.map Prod.fst := by
    have h : (plainly (frame text) ++ plainly [69]).map Prod.fst <+: _ := hrest.bytes
    rwa [List.map_append, plainly_bytes, plainly_bytes] at h
  have hframe : frame text <+: more.map Prod.fst := (List.prefix_append _ _).trans hbytes
  rcases hsent with hnil | ⟨_, ⟨f, hf, rfl⟩, hsent | ⟨hauth, hsent⟩⟩
  · rw [hfirst] at hnil
    cases hnil
  · -- The request alone does not hold the frame and one byte more.
    rw [hfirst, List.singleton_append, List.cons_prefix_cons] at hsent
    have hle : more.map Prod.fst <+: frame request := by
      have h := hsent.2.map Prod.fst
      rwa [plainly_bytes] at h
    obtain rfl := frame_unique (hframe.trans hle) (List.prefix_refl _) htext hrequest
    have hlength := (hbytes.trans hle).length_le
    rw [List.length_append, List.length_singleton] at hlength
    omega
  · rw [hfirst, List.append_assoc, List.singleton_append, List.cons_prefix_cons] at hsent
    obtain rfl : f = file := Option.some.inj (Prod.mk.inj hsent.1).2
    have hrequested : frame request <+: more.map Prod.fst := by
      have h := ((List.prefix_append _ _).trans hsent.2).map Prod.fst
      rwa [plainly_bytes] at h
    exact ⟨hauth, hf, frame_unique hframe hrequested htext hrequest⟩

/-- A request beyond the limit of the protocol is never sent. -/
theorem capture_too_long_upholds (W : Env) (patience : ℕ) (config : WasixWorkerConfig)
    (binding : WasixCheckpointBinding) (module : Bytes) (input : CommandInput) (files : Files)
    (hlong : WASIX_WORKER_MAX_CAPTURE_REQUEST_BYTES < (request_of input).length) :
    dealing.Upholds ((probeTerms config).guard W) (Monitor.Post fun _ _ => False)
      (capture_wasix_checkpoint W patience config binding module input) (.start files) := by
  unfold capture_wasix_checkpoint
  refine Monitor.Upholds.bindF (compute_upholds _) ?_
  rintro _ _ ⟨rfl, -⟩
  refine Monitor.Upholds.bindF (compute_upholds _) ?_
  rintro ⟨request, execution_timeout⟩ _ ⟨rfl, hnew⟩
  obtain ⟨rfl, rfl⟩ := Prod.mk.inj (capture_request_new_eq_ok hnew)
  refine Monitor.Upholds.bindF (run_quiet (.poll .cancelled) trivial fun _ => rfl) ?_
  rintro cancelled _ rfl
  refine Monitor.Upholds.bindF (Monitor.Upholds.reject _ _ _) ?_
  rintro _ _ ⟨rfl, -⟩
  refine Monitor.Upholds.bindF (pin_executable_upholds config rfl) ?_
  rintro executable _ rfl
  unfold capture_wasix_checkpoint_linux
  refine Monitor.Upholds.bindF (Monitor.Upholds.reject _ _ _) ?_
  rintro _ _ ⟨rfl, -⟩
  refine Monitor.Upholds.bindF (Monitor.Upholds.reject _ _ _) ?_
  rintro _ _ ⟨rfl, -⟩
  refine Monitor.Upholds.bindF (Monitor.Upholds.reject _ _ _) ?_
  rintro _ _ ⟨rfl, hshort⟩
  exact absurd hlong (decide_eq_false_iff_not.mp (Bool.or_eq_false_iff.mp hshort).2)

/-- Who sends nothing has sent nothing. -/
theorem probe_sent (h : (probeTerms config).Sent W d) : d.sent = [] := by
  rcases h with hnil | ⟨_, rfl, hsent | ⟨⟨_, _, _, _, _, -, -, hack, -⟩, -⟩⟩
  · exact hnil
  · exact List.prefix_nil.mp hsent
  · exact hack.elim

/-- Where a restore executes a guest. -/
structure RestoreAgreed (W : Env) (config : WasixWorkerConfig)
    (checkpoint : VerifiedWasixCheckpoint) (module : Bytes) (d : Dealings) (t : Served)
    (executed : Bytes) (journal : Fd) : Prop where
  trusts : (restoreTerms W config checkpoint module).Trusts W d t
  pinned : ∃ executable, d.pinned = some executable ∧
    executable.sha256 = checkpoint.worker_build_sha256
  module_eq : executed = module
  digest : W.sha256_hex executed = checkpoint.binding.module_sha256
  journal_eq : settled d.files journal = some (journal_of checkpoint)
  taken : ∃ file, t.taken = [(77, some file), (67, some journal)] ++ plainly [69]
  ended : t.ended = some t.taken

/-- Where a capture executes a guest. -/
structure CaptureAgreed (W : Env) (config : WasixWorkerConfig) (binding : WasixCheckpointBinding)
    (module : Bytes) (input : CommandInput) (d : Dealings) (t : Served) (executed : Bytes)
    (request : WasixCheckpointCaptureRequest) : Prop where
  trusts : (captureTerms W config binding module (request_of input)).Trusts W d t
  module_eq : executed = module
  digest : W.sha256_hex executed = binding.module_sha256
  request_eq : W.capture_request_from_slice (request_of input) = .ok request
  taken : ∃ file, t.taken = [(77, some file)] ++ plainly (frame (request_of input)) ++ plainly [69]
  ended : t.ended = some t.taken

end Agreement

/-- In every run of a restore or a capture, whatever is delayed, dropped or cut short on either
side, a worker that comes to the execution of a guest has been placed and its Ready frame accepted,
the guest is the caller's, and the worker has received `E` and then the end of the socket. -/
theorem execution_agreed (W : Env) (patience : ℕ) (config : WasixWorkerConfig) (module : Bytes)
    (files : Files) :
    (∀ checkpoint executed journal p d rest t,
      channels.Reaches (restore_wasix_checkpoint W patience config checkpoint module)
        (.start files) (write_wasix_checkpoint_restore W) .start p d
        (.vis (.execute_restore executed journal) rest) t →
      RestoreAgreed W config checkpoint module d t executed journal) ∧
    ∀ binding input executed request p d rest t,
      channels.Reaches (capture_wasix_checkpoint W patience config binding module input)
        (.start files) (write_wasix_checkpoint_capture W) .start p d
        (.vis (.execute_capture executed request) rest) t →
      CaptureAgreed W config binding module input d t executed request := by
  refine ⟨?_, ?_⟩
  · intro checkpoint executed journal p d rest t hreach
    have hparent :=
      restore_wasix_checkpoint_upholds (W := W) patience config checkpoint module files
    have hrelated := channels_invariant hparent hreach
    obtain ⟨file, hserved, hexecuted⟩ :=
      channels_guarded hparent (fun _ => write_wasix_checkpoint_restore_upholds) hreach
    obtain ⟨hauth, hmodule, hjournal⟩ :=
      restore_arrived hrelated.sent (hserved.taken ▸ hrelated.arrived)
    have hexec : executed = module := hexecuted module hmodule.settled
    obtain ⟨command, process_id, text, metadata, acknowledgement, hired, -⟩ := id hauth
    refine ⟨hrelated.trusts hauth hserved, ⟨_, hired.pinned, hired.agrees.1⟩, hexec, ?_,
      hjournal.settled, ⟨file, hserved.taken⟩, hserved.ended⟩
    rw [hexec]
    exact hired.agrees.2
  · intro binding input executed request p d rest t hreach
    have hmax : WASIX_WORKER_MAX_CAPTURE_REQUEST_BYTES ≤ u32_max := by decide
    have hchild : ∀ image, (serving image).Upholds (Served.guard W image)
        (Monitor.Post fun _ _ => True) (write_wasix_checkpoint_capture W) .start :=
      fun _ => write_wasix_checkpoint_capture_upholds
    by_cases hlong : WASIX_WORKER_MAX_CAPTURE_REQUEST_BYTES < (request_of input).length
    · -- The parent sends nothing, and a worker that has taken nothing executes nothing.
      have hparent := capture_too_long_upholds W patience config binding module input files hlong
      have hrelated := channels_invariant hparent hreach
      obtain ⟨file, text, hserved, -⟩ := channels_guarded hparent hchild hreach
      have harrived := hrelated.arrived
      rw [probe_sent hrelated.sent, hserved.taken] at harrived
      exact absurd rfl (harrived.ne_nil (List.cons_ne_nil _ _))
    · have hparent := capture_wasix_checkpoint_upholds (W := W) patience config binding module input
        files
      have hrelated := channels_invariant hparent hreach
      obtain ⟨file, text, hserved, htext, hrequest, hexecuted⟩ :=
        channels_guarded hparent hchild hreach
      obtain ⟨hauth, hmodule, rfl⟩ := capture_arrived (by omega) (htext.trans hmax) hrelated.sent
        (hserved.taken ▸ hrelated.arrived)
      have hexec : executed = module := hexecuted module hmodule.settled
      obtain ⟨command, process_id, text, metadata, acknowledgement, hired, -⟩ := id hauth
      refine ⟨hrelated.trusts hauth hserved, hexec, ?_, hrequest, ⟨file, hserved.taken⟩,
        hserved.ended⟩
      rw [hexec]
      exact hired.agrees

/-! ### A run

The two sides take turns until the worker is about to execute the guest. -/

/-- A parent whose calls succeed. Its files have the next free number, its worker is process 7, and
nothing is dropped, cancelled or late. It waits for output that is not there yet. -/
def obliging (executable : PinnedWorkerExecutable) (d : Dealings) (t : Served) :
    (op : ParentOp) → Option (ParentAnswer op)
  | .input (.memfd_create _) =>
    if d.files 0 = none then some (.ok 0) else if d.files 1 = none then some (.ok 1) else none
  | .input (.write_all _ _) => some (.ok ())
  | .input .cancelled_load => some false
  | .input (.rewind _) => some (.ok ())
  | .input (.add_seals _ _) => some (.ok ())
  | .input (.get_seals file) => (d.files file).map fun f => .ok f.seals
  | .input (.fstat file) => (d.files file).map fun f => .ok ⟨.RegularFile, 0, f.content.length⟩
  | .output (.read len) =>
    if d.heard.stream.length < t.written.length then
      some (.ok ⟨(t.written.drop d.heard.stream.length).take len, List.length_take_le ..⟩)
    else none
  | .output (.try_reserve _) => some (.ok ())
  | .pin _ => some (.ok executable)
  | .dup _ => some (.ok ())
  | .now => some 0
  | .join _ => some .finished
  | .socketpair => some (.ok ())
  | .set_nonblocking => some (.ok ())
  | .register => some (.ok ())
  | .spawn _ => some (.ok (some 7))
  | .place _ _ => some .placed
  | .take_stdout => some true
  | .take_stderr => some true
  | .writable => some (.ok ())
  | .sendmsg _ _ => some (.sent 1)
  | .write_control _ => some (.ok ())
  | .shutdown_control => some (.ok ())
  | .drop_control => some ()
  | .poll _ => some false
  | _ => none

theorem taken_bytes_le (len : ℕ) (parcels : List Parcel) :
    ((parcels.take len).map Prod.fst).length ≤ len := by
  rw [List.length_map]
  exact List.length_take_le len parcels

/-- A worker whose calls succeed. It waits for what is not there yet, and the socket ends after the
authorization. -/
def diligent (worker : WasixWorkerMetadata) (d : Dealings) (t : Served) :
    (op : ChildOp) → Option (ChildAnswer op)
  | .current_worker_build_sha256 => some (.ok worker.worker_build_sha256)
  | .enter_wasix_worker_isolation => some (.ok worker.isolation)
  | .process_id => some worker.process_id
  | .writer (.write_all _) => some (.ok ())
  | .writer .flush => some (.ok ())
  | .recvmsg => (d.sent.drop t.taken.length).head?.map fun parcel =>
    .ok ⟨1, parcel.1, false, parcel.2.toList.map fun file => .rights [file]⟩
  | .read len =>
    if t.taken.length < d.sent.length ∨ d.sent.getLast? = some (69, none) then
      some (.ok ⟨((d.sent.drop t.taken.length).take len).map Prod.fst, taken_bytes_le ..⟩)
    else none
  | .input (.get_seals file) => (d.files file).map fun f => .ok f.seals
  | .input (.fstat file) => (d.files file).map fun f => .ok ⟨.RegularFile, 0, f.content.length⟩
  | .input (.pread file len offset) => (settled d.files file).map fun content =>
    .ok ⟨(content.drop offset).take len, List.length_take_le ..⟩
  | .input (.try_reserve _) => some (.ok ())
  | .open_null => some (.ok ())
  | .dup2_stdin => some (.ok ())
  | _ => none

/-- A module of the example: the magic number. -/
def sampleModule : Bytes := [0, 97, 115, 109]

/-- A deployment with a placement policy. -/
def samplePlaced : WasixWorkerConfig := ⟨"/worker", 1000, [1000], true⟩

/-- The executable of the example. -/
def sampleExecutable : PinnedWorkerExecutable := ⟨9, "/worker", sampleWorker.worker_build_sha256⟩

/-- A checkpoint of the module. -/
def sampleVerified : VerifiedWasixCheckpoint where
  binding := { Checkpoint.sampleBinding with
    module_sha256 := sampleDigest sampleModule
    command := "_start" }
  bytes := Checkpoint.sampleJournal
  journal_range := (0, Checkpoint.sampleJournal.length)
  artifact_sha256 := sampleDigest Checkpoint.sampleJournal
  worker_build_sha256 := sampleWorker.worker_build_sha256

/-- A command with one argument. -/
def sampleInput : CommandInput := ⟨[], ["run"], [], 1000⟩

/-- What the worker of the example acknowledges in a restore. -/
def sampleRestoreAck : WasixCheckpointRestoreAck :=
  ⟨sampleModule.length, sampleDigest sampleModule, Checkpoint.sampleJournal.length,
    sampleDigest Checkpoint.sampleJournal⟩

/-- And in a capture. -/
def sampleCaptureAck : WasixCheckpointCaptureAck :=
  ⟨sampleModule.length, sampleDigest sampleModule, (request_of sampleInput).length,
    sampleDigest (request_of sampleInput)⟩

/-- A decoder of one text. -/
def decoder {α : Type} (text : Bytes) (value : α) (slice : Bytes) : Except String α :=
  if slice = text then .ok value else .error "expected value at line 1 column 1"

/-- The environment of the transcript example, with decoders for what the two sides say here. -/
def sampleControlEnv : Env :=
  { sampleTranscriptEnv with
    metadata_from_slice := decoder (to_vec sampleWorker.to_json) sampleWorker
    restore_ack_from_slice := decoder (to_vec sampleRestoreAck.to_json) sampleRestoreAck
    capture_request_from_slice :=
      decoder (request_of sampleInput) ⟨sampleInput.args, sampleInput.env⟩
    capture_ack_from_slice := decoder (to_vec sampleCaptureAck.to_json) sampleCaptureAck }

/-- What comes next over the socket. -/
theorem Arrived.next {taken got sent next : List Parcel} (h : Arrived taken sent)
    (hnext : next <+: sent.drop taken.length) (hgot : List.Forall₂ Carries got next) :
    Arrived (taken ++ got) sent := by
  obtain ⟨front, ⟨more, rfl⟩, hcarries⟩ := h
  rw [hcarries.length_eq, List.drop_left] at hnext
  exact ⟨front ++ next, (List.prefix_append_right_inj front).mpr hnext,
    List.rel_append hcarries hgot⟩

theorem ReadOf.take_drop (content : Bytes) (len offset : ℕ) :
    ReadOf content len offset ((content.drop offset).take len) := by
  refine ⟨List.prefix_iff_eq_take.mp (List.take_prefix _ _), ?_⟩
  intro hempty hpos
  rcases List.take_eq_nil_iff.mp hempty with hzero | hnil
  · omega
  · exact List.drop_eq_nil_iff.mp hnil

/-- Only the output pipe is heard. -/
theorem Dealings.heard_after (d : Dealings) {op : ParentOp} (hop : ∀ o, op ≠ .output o)
    (r : ParentAnswer op) : (d.after op r).heard = d.heard := by
  cases op with
  | output op => exact absurd rfl (hop op)
  | pin path => cases r <;> exact rfl
  | spawn command => rcases r with e | _ | process_id <;> exact rfl
  | place process_id operation => cases r <;> exact rfl
  | sendmsg file marker => rcases r with (_ | _ | n) | _ | _ <;> exact rfl
  | _ => exact rfl

/-- The answers of the obliging parent are possible ones. -/
theorem obliging_possible {executable : PinnedWorkerExecutable} {d : Dealings} {t : Served}
    {op : ParentOp} {r : ParentAnswer op} (hheard : d.heard.stream <+: t.written)
    (h : obliging executable d t op = some r) :
    dealing.ok d op r ∧ (d.after op r).heard.stream <+: t.written := by
  cases op with
  | output op =>
    refine ⟨trivial, ?_⟩
    cases op with
    | read len =>
      rw [obliging] at h
      split_ifs at h
      cases h
      -- What is delivered continues what was heard.
      obtain ⟨more, hmore⟩ := hheard
      show d.heard.stream ++ (t.written.drop d.heard.stream.length).take len <+: t.written
      rw [← hmore, List.drop_left, List.prefix_append_right_inj]
      exact List.take_prefix _ _
    | try_reserve len => exact hheard
    | wait => cases h
    | kill_tree => exact hheard
    | disarm => exact hheard
  | input op =>
    refine ⟨?_, hheard⟩
    cases op with
    | memfd_create name =>
      rw [obliging] at h
      split_ifs at h with hzero hone
      · cases h
        exact hzero
      · cases h
        exact hone
    | _ => exact trivial
  | _ =>
    refine ⟨trivial, ?_⟩
    rw [Dealings.heard_after d (by rintro o ⟨⟩)]
    exact hheard

/-- So are those of the diligent worker. -/
theorem diligent_possible {worker : WasixWorkerMetadata} {d : Dealings} {t : Served}
    {op : ChildOp} {r : ChildAnswer op} (harrived : Arrived t.taken d.sent)
    (h : diligent worker d t op = some r) :
    (serving (settled d.files)).ok t op r ∧ Arrived (t.after op r).taken d.sent := by
  cases op with
  | writer op =>
    refine ⟨trivial, ?_⟩
    cases op <;> exact harrived
  | recvmsg =>
    refine ⟨trivial, ?_⟩
    obtain ⟨⟨byte, descriptor⟩, hparcel, hr⟩ := Option.map_eq_some_iff.mp h
    subst hr
    obtain ⟨rest, hrest⟩ := List.head?_eq_some_iff.mp hparcel
    have hcarries : Carries (byte, descriptor) (byte, descriptor) := ⟨rfl, fun _ hfile => hfile⟩
    cases descriptor <;>
      exact harrived.next (hrest ▸ List.prefix_append [_] rest) (.cons hcarries .nil)
  | read len =>
    refine ⟨trivial, ?_⟩
    rw [diligent] at h
    split_ifs at h
    cases h
    rw [Served.after]
    split_ifs
    · exact harrived
    -- A byte that is read comes without its descriptor.
    · refine harrived.next (List.take_prefix len _) ?_
      rw [plainly, List.forall₂_map_left_iff, List.forall₂_map_left_iff, List.forall₂_same]
      intro parcel _
      exact ⟨rfl, fun _ hfile => by cases hfile⟩
  | input op =>
    refine ⟨?_, harrived⟩
    cases op with
    | pread file len offset =>
      obtain ⟨content, hcontent, hr⟩ := Option.map_eq_some_iff.mp h
      subst hr
      intro content' hcontent'
      obtain rfl := Option.some.inj (hcontent.symm.trans hcontent')
      exact ReadOf.take_drop content len offset
    | _ => exact trivial
  | _ => exact ⟨trivial, harrived⟩

/-- The two sides of the example take turns. -/
def sampleWalk {α β : Type} (rounds : ℕ) (p : ParentM Error α) (q : ChildM β) :=
  channels.walk (obliging sampleExecutable) (diligent sampleWorker)
    (List.replicate rounds [true, false]).flatten p (.start fun _ => none) q .start

theorem sampleWalk_reaches {α β : Type} (rounds : ℕ) (p : ParentM Error α) (q : ChildM β) :
    channels.Reaches p (.start fun _ => none) q .start (sampleWalk rounds p q).1
      (sampleWalk rounds p q).2.1 (sampleWalk rounds p q).2.2.1 (sampleWalk rounds p q).2.2.2 := by
  refine Meeting.Reaches.walk
    (I := fun d t => Arrived t.taken d.sent ∧ d.heard.stream <+: t.written) ?_ ?_ _ .start ?_
  · intro d t op r hI hr
    obtain ⟨hok, hmeet⟩ := obliging_possible hI.2 hr
    exact ⟨hok, hmeet, hI.1.mono (d.sent_after op r), hmeet⟩
  · intro d t op r hI hr
    have hmeet := diligent_possible hI.1 hr
    exact ⟨trivial, hmeet, hmeet.2, hI.2.trans (t.written_after op r)⟩
  · exact ⟨⟨[], List.prefix_refl _, .nil⟩, List.prefix_refl _⟩

/-- The worker is about to execute this module with this journal. -/
def restores {β : Type} (module : Bytes) (journal : Fd) : ChildM β → Bool
  | .vis (.execute_restore executed file) _ => executed == module && file == journal
  | _ => false

/-- The worker is about to execute this module with this request. -/
def captures {β : Type} (module : Bytes) (request : WasixCheckpointCaptureRequest) :
    ChildM β → Bool
  | .vis (.execute_capture executed asked) _ =>
    executed == module && decide (asked = request)
  | _ => false

theorem restores_eq_true {β : Type} (module : Bytes) (journal : Fd) (q : ChildM β)
    (h : restores module journal q = true) :
    ∃ rest, q = .vis (.execute_restore module journal) rest := by
  unfold restores at h
  split at h
  · obtain ⟨rfl, rfl⟩ := by simpa using h
    exact ⟨_, rfl⟩
  · cases h

theorem captures_eq_true {β : Type} (module : Bytes) (request : WasixCheckpointCaptureRequest)
    (q : ChildM β) (h : captures module request q = true) :
    ∃ rest, q = .vis (.execute_capture module request) rest := by
  unfold captures at h
  split at h
  · obtain ⟨rfl, rfl⟩ := by simpa using h
    exact ⟨_, rfl⟩
  · cases h

/-- There are such runs: a restore and a capture that come to their guest. -/
theorem execution_agreed_sample :
    (∃ p d rest t, channels.Reaches (restore_wasix_checkpoint sampleControlEnv 1 samplePlaced
        sampleVerified sampleModule) (.start fun _ => none)
        (write_wasix_checkpoint_restore sampleControlEnv) .start p d
        (.vis (.execute_restore sampleModule 1) rest) t ∧
      RestoreAgreed sampleControlEnv samplePlaced sampleVerified sampleModule d t
        sampleModule 1) ∧
    ∃ p d rest t, channels.Reaches (capture_wasix_checkpoint sampleControlEnv 1 samplePlaced
        sampleVerified.binding sampleModule sampleInput) (.start fun _ => none)
        (write_wasix_checkpoint_capture sampleControlEnv) .start p d
        (.vis (.execute_capture sampleModule ⟨sampleInput.args, sampleInput.env⟩) rest) t ∧
      CaptureAgreed sampleControlEnv samplePlaced sampleVerified.binding sampleModule sampleInput
        d t sampleModule ⟨sampleInput.args, sampleInput.env⟩ := by
  obtain ⟨hrestore, hcapture⟩ :=
    execution_agreed sampleControlEnv 1 samplePlaced sampleModule fun _ => none
  refine ⟨?_, ?_⟩
  · obtain ⟨rest, hrest⟩ := restores_eq_true sampleModule 1
      (sampleWalk 90 (restore_wasix_checkpoint sampleControlEnv 1 samplePlaced
        sampleVerified sampleModule) (write_wasix_checkpoint_restore sampleControlEnv)).2.2.1
      (by decide +kernel)
    have hreach := sampleWalk_reaches 90 (restore_wasix_checkpoint sampleControlEnv 1
      samplePlaced sampleVerified sampleModule) (write_wasix_checkpoint_restore sampleControlEnv)
    rw [hrest] at hreach
    exact ⟨_, _, rest, _, hreach, hrestore _ _ _ _ _ _ _ hreach⟩
  · obtain ⟨rest, hrest⟩ := captures_eq_true sampleModule ⟨sampleInput.args, sampleInput.env⟩
      (sampleWalk 120 (capture_wasix_checkpoint sampleControlEnv 1 samplePlaced
        sampleVerified.binding sampleModule sampleInput)
        (write_wasix_checkpoint_capture sampleControlEnv)).2.2.1 (by decide +kernel)
    have hreach := sampleWalk_reaches 120 (capture_wasix_checkpoint sampleControlEnv 1
      samplePlaced sampleVerified.binding sampleModule sampleInput)
      (write_wasix_checkpoint_capture sampleControlEnv)
    rw [hrest] at hreach
    exact ⟨_, _, rest, _, hreach, hcapture _ _ _ _ _ _ _ _ hreach⟩

end WasmRuntime.Worker
