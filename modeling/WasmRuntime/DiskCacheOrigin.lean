/-
Where the bytes that `DiskCache::load` returns come from.

Any number of `publish` and `load` calls run in one directory, under any keys and targets, in any
interleaving of their file operations. Each `publish` may have an artifact of its own: nothing is
asked of the entries. The artifact and its record are two files, so that anything may come to stand
beside anything.
-/
import WasmRuntime.Accounts
import WasmRuntime.DiskCachePublishers
import WasmRuntime.TagPreimage

set_option autoImplicit false

namespace WasmRuntime.Cache

open ByteCodec Prog Function

/-! ## Calls

A call may stop at any operation and a write may stop in the middle, and between two operations
files may be deleted or change places. -/

/-- A call of the disk cache. -/
inductive DiskCall where
  | publish (job : Publisher)
  | load (self : DiskCache) (digest : Digest) (profile : WasiProfile)

/-- The bytes of the record that a publisher writes. -/
def Publisher.record (E : CacheEnv) (job : Publisher) : Bytes :=
  Json.render (job.cache.metadata_of E job.digest job.profile job.artifact).to_json

/-- What a call runs. -/
def DiskCall.program (E : CacheEnv) : DiskCall → DiskM (Option Bytes)
  | .publish job => do
      job.program E
      pure none
  | .load self digest profile => self.load E digest profile

/-- A call, with the files that it has read. -/
structure DiskReading where
  call : DiskCall
  seen : List Bytes := []

/-- The directory and the calls, with those that have begun: that have performed an
operation. -/
structure DiskHistory (ι : Type) where
  world : World
  readings : ι → DiskReading
  begun : Set ι

/-- What an operation reads. -/
def DiskOp.reads : (op : DiskOp) → op.Answer → List Bytes
  | .fs (.read _), .ok bytes => [bytes]
  | _, _ => []

/-- A file operation that fails. -/
inductive DiskOp.Fault (w : World) : (op : DiskOp) → op.Answer → World → Prop where
  | fs (op : FsOp) (answer : op.Answer) (dir : Dir) (h : op.Fault w.dir answer dir) :
      Fault w (.fs op) answer { w with dir }

/-- Somebody deletes a file, or lets two change places. -/
inductive Tampering (d : Dir) : Dir → Prop where
  | deleted (name : String) : Tampering d (update d name none)
  | swapped (name name' : String) :
      Tampering d (update (update d name (d name')) name' (d name))

section History

variable {ι : Type} [DecidableEq ι]

/-- An operation of call `i`, which may fail. -/
def DiskHistory.Performs (i : ι) (s : DiskHistory ι) (op : DiskOp) (answer : op.Answer)
    (s' : DiskHistory ι) : Prop :=
  ∃ w, (plain_step s.world op answer w ∨ op.Fault s.world answer w) ∧
    s' = ⟨w, update s.readings i { s.readings i with
        seen := op.reads answer ++ (s.readings i).seen }, insert i s.begun⟩

/-- What happens to the files in between. -/
def DiskHistory.Tampered (s s' : DiskHistory ι) : Prop :=
  ∃ dir, Tampering s.world.dir dir ∧ s' = { s with world := { s.world with dir } }

/-- A call that has returned stays with its result. -/
def returns (result : Except Error (Option Bytes)) :
    Prog DiskOp DiskOp.Answer (Option (Except Error (Option Bytes))) := .ret (some result)

/-- The calls over the directory. -/
abbrev DiskCalls (ι : Type) : Type :=
  Tasks ι (DiskHistory ι) DiskOp DiskOp.Answer (Except Error (Option Bytes))

/-- None has begun, and the directory is empty. -/
def DiskCalls.start (E : CacheEnv) (calls : ι → DiskCall) (sequence : UInt32 → UInt64) :
    DiskCalls ι where
  state := ⟨⟨fun _ => none, sequence⟩, fun i => { call := calls i }, ∅⟩
  threads i := Prog.bind ((calls i).program E) returns

/-- Any interleaving, with faults and with tampering. -/
def DiskCalls.Run : DiskCalls ι → DiskCalls ι → Prop :=
  Tasks.Run DiskHistory.Performs DiskHistory.Tampered returns

end History

/-! ## What the files are

What holds throughout is that a file is an initial part of what some `publish` has written, an
artifact or a record. -/

section Origins

variable {ι : Type} {E : CacheEnv} {calls : ι → DiskCall} {begun begun' : Set ι} {bytes : Bytes}

/-- An initial part of what a `publish` that has begun writes. -/
def Origin (E : CacheEnv) (calls : ι → DiskCall) (begun : Set ι) (bytes : Bytes) : Prop :=
  ∃ i ∈ begun, ∃ job, calls i = .publish job ∧
    ∃ n, bytes = job.artifact.take n ∨ bytes = (job.record E).take n

theorem Origin.mono (h : Origin E calls begun bytes) (hle : begun ⊆ begun') :
    Origin E calls begun' bytes := by
  obtain ⟨i, hi, hrest⟩ := h
  exact ⟨i, hle hi, hrest⟩

/-- Every file of the directory has an origin. -/
def Originates (E : CacheEnv) (calls : ι → DiskCall) (begun : Set ι) (d : Dir) : Prop :=
  ∀ name bytes, d name = some bytes → Origin E calls begun bytes

theorem Originates.mono {d : Dir} (h : Originates E calls begun d) (hle : begun ⊆ begun') :
    Originates E calls begun' d :=
  fun name bytes hfile => (h name bytes hfile).mono hle

/-- Another file, or none, in the place of one. -/
theorem Originates.update {d : Dir} (h : Originates E calls begun d) (name : String)
    {contents : Option Bytes} (hcontents : ∀ bytes, contents = some bytes →
      Origin E calls begun bytes) : Originates E calls begun (update d name contents) := by
  intro name' bytes hfile
  by_cases hname : name' = name
  · subst hname
    rw [update_self] at hfile
    exact hcontents bytes hfile
  · rw [update_of_ne hname] at hfile
    exact h name' bytes hfile

/-- Files that are deleted or swapped come from where they came from. -/
theorem Originates.tampering {d d' : Dir} (h : Originates E calls begun d)
    (ht : Tampering d d') : Originates E calls begun d' := by
  cases ht with
  | deleted name => exact h.update name fun _ hnone => by cases hnone
  | swapped name name' => exact (h.update name (h name')).update name' (h name)

/-- A file operation keeps this, if what it writes has an origin. -/
theorem Originates.effect {d d' : Dir} {op : FsOp} (h : Originates E calls begun d)
    (heffect : op.Effect d d')
    (hwrite : ∀ path contents, op = .write path contents →
      ∀ n, Origin E calls begun (contents.take n)) : Originates E calls begun d' := by
  cases heffect with
  | same => exact h
  | wrote path contents n =>
    refine h.update path ?_
    rintro bytes ⟨⟩
    exact hwrite path contents rfl n
  | renamed src dst contents hsrc =>
    rw [Dir.renamed]
    refine (h.update src fun _ hnone => by cases hnone).update dst ?_
    rintro bytes ⟨⟩
    exact h src contents hsrc

/-! What an operation does, faults included. -/

/-- An operation, with or without a fault, has one of few effects. -/
theorem does_effect {w w' : World} {op : FsOp} {answer : op.Answer}
    (h : plain_step w (.fs op) answer w' ∨ DiskOp.Fault w (.fs op) answer w') :
    op.Effect w.dir w'.dir := by
  rcases h with h | h
  · rw [← (Prod.mk.inj h).2]
    exact FsOp.run_effect w.dir op
  · cases h with
    | fs _ _ _ hfault => exact hfault.effect

theorem does_fetch_add {w w' : World} {pid : UInt32} {answer : UInt64}
    (h : plain_step w (.fetch_add pid) answer w' ∨ DiskOp.Fault w (.fetch_add pid) answer w') :
    w'.dir = w.dir := by
  rcases h with h | h
  · exact plain_fetch_add h
  · cases h

theorem does_read {w w' : World} {path : String}
    (h : plain_step w (.fs (.read path)) (.ok bytes) w' ∨
      DiskOp.Fault w (.fs (.read path)) (.ok bytes) w') : w.dir path = some bytes := by
  rcases h with h | h
  · obtain ⟨-, hnone, hsome⟩ := plain_read h
    cases hfile : w.dir path with
    | none => cases hnone hfile
    | some found =>
      cases hsome found hfile
      rfl
  · cases h with
    | fs _ _ _ hfault => cases hfault

end Origins

/-! ## The invariant

What a call has read has an origin too, and is all that its account holds. -/

section Invariant

variable {ι : Type} {E : CacheEnv} {calls : ι → DiskCall}

/-- Files, and what has been read of them, have an origin. -/
structure DiskHistory.Sound (E : CacheEnv) (calls : ι → DiskCall) (s : DiskHistory ι) : Prop where
  files : Originates E calls s.begun s.world.dir
  seen : ∀ i, ∀ bytes ∈ (s.readings i).seen, Origin E calls s.begun bytes
  calls : ∀ i, (s.readings i).call = calls i

/-- A call writes only what is its own. -/
def DiskReading.Allowed (E : CacheEnv) (a : DiskReading) : DiskOp → Prop
  | .fs (.write _ bytes) => ∃ job, a.call = .publish job ∧
      (bytes = job.artifact ∨ bytes = job.record E)
  | _ => True

theorem DiskHistory.Sound.start (E : CacheEnv) (calls : ι → DiskCall)
    (sequence : UInt32 → UInt64) :
    (DiskCalls.start E calls sequence).state.Sound E calls where
  files _ _ h := by cases h
  seen _ _ h := absurd h List.not_mem_nil
  calls _ := rfl

theorem DiskHistory.Sound.tampered {s s' : DiskHistory ι} (h : s.Sound E calls)
    (ht : s.Tampered s') : s'.Sound E calls ∧ s'.readings = s.readings := by
  obtain ⟨dir, ht, rfl⟩ := ht
  exact ⟨⟨h.files.tampering ht, h.seen, h.calls⟩, rfl⟩

/-- What is read has the origin of its file. -/
theorem DiskHistory.Sound.reads {s : DiskHistory ι} (h : s.Sound E calls) {op : DiskOp}
    {answer : op.Answer} {w : World}
    (hdoes : plain_step s.world op answer w ∨ op.Fault s.world answer w) :
    ∀ bytes ∈ op.reads answer, Origin E calls s.begun bytes := by
  intro bytes hbytes
  -- Only a read that succeeds reads anything.
  unfold DiskOp.reads at hbytes
  split at hbytes
  · obtain rfl := List.mem_singleton.mp hbytes
    exact h.files _ _ (does_read hdoes)
  · exact absurd hbytes List.not_mem_nil

theorem DiskHistory.Sound.files_after {s : DiskHistory ι} {i : ι} (h : s.Sound E calls)
    {op : DiskOp} (hallowed : (s.readings i).Allowed E op) {answer : op.Answer} {w : World}
    (hdoes : plain_step s.world op answer w ∨ op.Fault s.world answer w) :
    Originates E calls (insert i s.begun) w.dir := by
  have hfiles := h.files.mono (Set.subset_insert i s.begun)
  cases op with
  | fetch_add pid =>
    rw [does_fetch_add hdoes]
    exact hfiles
  | fs fop =>
    refine hfiles.effect (does_effect hdoes) ?_
    rintro path contents rfl n
    obtain ⟨job, hjob, hcontents⟩ := hallowed
    refine ⟨i, Set.mem_insert i _, job, (h.calls i).symm.trans hjob, n, ?_⟩
    rcases hcontents with rfl | rfl
    · exact .inl rfl
    · exact .inr rfl

variable [DecidableEq ι]

/-- Every operation keeps the invariant. -/
theorem DiskHistory.Sound.performs {s s' : DiskHistory ι} {i : ι} (h : s.Sound E calls)
    {op : DiskOp} (hallowed : (s.readings i).Allowed E op) {answer : op.Answer}
    (hstep : DiskHistory.Performs i s op answer s') : s'.Sound E calls := by
  obtain ⟨w, hdoes, rfl⟩ := hstep
  refine ⟨h.files_after hallowed hdoes, ?_, ?_⟩
  · intro j bytes hbytes
    -- What had an origin keeps it when another call has begun.
    refine Origin.mono ?_ (Set.subset_insert i s.begun)
    by_cases hj : j = i
    · subst hj
      dsimp only at hbytes
      rw [update_self] at hbytes
      rcases List.mem_append.mp hbytes with hnew | hold
      · exact h.reads hdoes bytes hnew
      · exact h.seen j bytes hold
    · dsimp only at hbytes
      rw [update_of_ne hj] at hbytes
      exact h.seen j bytes hbytes
  · intro j
    dsimp only
    by_cases hj : j = i
    · subst hj
      rw [update_self]
      exact h.calls j
    · rw [update_of_ne hj]
      exact h.calls j

/-- The accounts of the calls: what each has read. -/
def diskAccounts (E : CacheEnv) (calls : ι → DiskCall) :
    Accounts ι (DiskHistory ι) DiskOp DiskOp.Answer DiskReading where
  account := DiskHistory.readings
  sound := DiskHistory.Sound E calls
  step := DiskHistory.Performs
  allowed := DiskReading.Allowed E
  next a op answer a' := a' = { a with seen := op.reads answer ++ a.seen }
  law := by
    intro i s op answer s' hsound hallowed hstep
    refine ⟨hsound.performs hallowed hstep, ?_⟩
    obtain ⟨w, -, rfl⟩ := hstep
    exact ⟨update_self .., fun j hj => update_of_ne hj ..⟩

end Invariant

/-! ## The programs

A `publish` writes its own texts only, and a `load` that returns an artifact has read it and a
record that it passes with. -/

section Checks

variable {ι : Type} [DecidableEq ι] {E : CacheEnv} {calls : ι → DiskCall} {a : DiskReading}

/-- A publish writes its own bytes only. -/
theorem check_write_own {job : Publisher} {path : String} {bytes : Bytes} {pid : UInt32}
    (hcall : a.call = .publish job) (hbytes : bytes = job.artifact ∨ bytes = job.record E) :
    (diskAccounts E calls).Check (fun _ a' => a'.call = .publish job)
      (atomic_publish pid path bytes) a := by
  unfold atomic_publish
  refine ⟨trivial, ?_⟩
  rintro sequence _ rfl
  refine ⟨⟨job, hcall, hbytes⟩, ?_⟩
  rintro written _ rfl
  cases written with
  | error e => exact hcall
  | ok u =>
    refine ⟨trivial, ?_⟩
    rintro permitted _ rfl
    cases permitted with
    | error e => exact hcall
    | ok u =>
      refine ⟨trivial, ?_⟩
      rintro renamed _ rfl
      cases renamed <;> exact hcall

/-- A publisher returns no bytes. -/
theorem check_publisher {job : Publisher} (hcall : a.call = .publish job) :
    (diskAccounts E calls).Check (fun result _ => ∀ bytes, result ≠ .ok (some bytes))
      ((DiskCall.publish job).program E) a := by
  have hpublish : (diskAccounts E calls).Check (fun _ _ => True) (job.program E) a := by
    by_cases hadm : job.Admitted
    · rw [Publisher.program_admitted hadm]
      refine .bindF (check_write_own hcall (.inl rfl)) (fun _ _ _ => trivial) ?_
      intro _ a' hcall'
      exact (check_write_own hcall' (.inr rfl)).mono fun _ _ _ => trivial
    · rw [Publisher.program_refused hadm]
      exact trivial
  refine .bindF hpublish ?_ ?_
  · intro e _ _ bytes hcontra
    cases hcontra
  · intro _ _ _ bytes hcontra
    cases hcontra

theorem check_read {Q : Except Error (Option Bytes) → DiskReading → Prop}
    {k : Bytes → DiskM (Option Bytes)} {wrap : String → Error} {path : String}
    (herror : ∀ e, Q (.error e) a)
    (hok : ∀ bytes, (diskAccounts E calls).Check Q (k bytes) { a with seen := bytes :: a.seen }) :
    (diskAccounts E calls).Check Q (read wrap path >>= k : DiskM (Option Bytes)) a := by
  refine ⟨trivial, ?_⟩
  rintro answer _ rfl
  cases answer with
  | error e => exact herror (wrap e)
  | ok bytes => exact hok bytes

/-- What a call that returns an artifact has read: the artifact, and a record that goes
with it. -/
def Accepted (E : CacheEnv) (self : DiskCache) (d : Digest) (p : WasiProfile) (artifact : Bytes)
    (seen : List Bytes) : Prop :=
  artifact ∈ seen ∧ ∃ text ∈ seen, ∃ metadata, E.from_slice text = .ok metadata ∧
    metadata.identity = self.identity d p ∧ self.check E d p metadata artifact = .ok ()

/-- What `load` returns it has read and checked. -/
theorem check_load_entry (self : DiskCache) (d : Digest) (p : WasiProfile) :
    (diskAccounts E calls).Check
      (fun result a' => ∀ artifact, result = .ok (some artifact) →
        Accepted E self d p artifact a'.seen)
      (self.load_entry E d p) a := by
  unfold DiskCache.load_entry
  refine check_read (fun e _ hcontra => by cases hcontra) fun text => ?_
  refine .ofExcept (fun e _ _ hcontra => by cases hcontra) fun metadata hdecode => ?_
  refine .reject (fun _ _ hcontra => by cases hcontra) fun hidentity => ?_
  refine .reject (fun _ _ hcontra => by cases hcontra) fun _ => ?_
  refine check_read (fun e _ hcontra => by cases hcontra) fun artifact => ?_
  refine .ofExcept (fun e _ _ hcontra => by cases hcontra) fun _ hcheck => ?_
  rintro _ ⟨⟩
  refine ⟨List.mem_cons_self, text, List.mem_cons_of_mem _ List.mem_cons_self, metadata, ?_, ?_,
    hcheck⟩
  · cases hslice : E.from_slice text with
    | error e =>
      rw [hslice] at hdecode
      cases hdecode
    | ok found =>
      rw [hslice] at hdecode
      cases hdecode
      rfl
  · exact bne_eq_false_iff_eq.mp hidentity

theorem check_loader (self : DiskCache) (d : Digest) (p : WasiProfile) :
    (diskAccounts E calls).Check
      (fun result a' => ∀ artifact, result = .ok (some artifact) →
        Accepted E self d p artifact a'.seen)
      ((DiskCall.load self d p).program E) a := by
  show (diskAccounts E calls).Check _ (self.load E d p) a
  unfold DiskCache.load
  refine ⟨trivial, ?_⟩
  rintro found _ rfl
  cases found with
  | true => exact check_load_entry self d p
  | false =>
    refine ⟨trivial, ?_⟩
    rintro found' _ rfl
    cases found' with
    | true => exact check_load_entry self d p
    | false => exact fun _ hcontra => by cases hcontra

/-- What a call may return. -/
def DiskCall.Returns (E : CacheEnv) (result : Except Error (Option Bytes)) (a : DiskReading) :
    Prop :=
  ∀ artifact, result = .ok (some artifact) →
    ∀ self d p, a.call = .load self d p → Accepted E self d p artifact a.seen

/-- What any call returns, by what it has read. -/
theorem check_call (call : DiskCall) (hcall : a.call = call) :
    (diskAccounts E calls).Check (DiskCall.Returns E) (call.program E) a := by
  cases call with
  | publish job =>
    refine (check_publisher hcall).mono ?_
    intro result a' hnone artifact hsome
    exact absurd hsome (hnone artifact)
  | load self d p =>
    have hframe : ∀ a op r a', (diskAccounts E calls).next a op r a' →
        a.call = .load self d p → a'.call = .load self d p := by
      rintro _ op r _ rfl hsame
      exact hsame
    refine ((check_loader self d p).frame hframe hcall).mono ?_
    rintro result a' ⟨haccepted, hsame⟩ artifact hsome self' d' p' hload
    obtain ⟨rfl, rfl, rfl⟩ := DiskCall.load.inj (hsame.symm.trans hload)
    exact haccepted artifact hsome

/-- In every run the files have their origin, and whoever returned an artifact has read it
beside a record that goes with it. -/
theorem DiskCalls.Run.sound {sequence : UInt32 → UInt64} {T : DiskCalls ι}
    (hrun : DiskCalls.Run (DiskCalls.start E calls sequence) T) :
    T.state.Sound E calls ∧ ∀ i result, T.threads i = returns result →
      DiskCall.Returns E result (T.state.readings i) := by
  have hreturns : ∀ result a, DiskCall.Returns E result a →
      (diskAccounts E calls).Check (Tasks.Post (fun _ => True) (DiskCall.Returns E))
        (returns result) a := fun _ _ h => h
  have hstart : ∀ i, (diskAccounts E calls).Check
      (Tasks.Post (fun _ => True) (DiskCall.Returns E))
      ((DiskCalls.start E calls sequence).threads i) { call := calls i } :=
    fun i => Accounts.Check.bind (check_call (calls i) rfl) hreturns
  obtain ⟨hsound, hthreads⟩ := Accounts.run (L := diskAccounts E calls)
    (T := DiskCalls.start E calls sequence) (fun _ _ hs ht => hs.tampered ht) hreturns
    (.start E calls sequence) hstart hrun
  refine ⟨hsound, fun i result hi => ?_⟩
  have hthis := hthreads i
  rw [hi] at hthis
  exact hthis

end Checks

/-! ## What was published

What `load` accepts, it accepts for the tag in the record: the tag is that of one artifact and one
identity under one key. So `load` returns what was not published for the entry exactly when some
artifact, or an initial part of one, reads as a record of the entry and holds the right tag although
no `publish` has computed it. -/

section Published

variable {ι : Type} {E : CacheEnv}

/-- The identity of an entry says which entry it is. -/
theorem DiskCache.identity_inj {self self' : DiskCache} {d d' : Digest} {p p' : WasiProfile}
    (h : self.identity d p = self'.identity d' p') : d = d' ∧ p = p' := by
  have hdigest := congrArg CacheIdentity.component_digest h
  have hprofile := congrArg CacheIdentity.profile h
  exact ⟨Digest.ext hdigest, WasiProfile.cache_id_injective hprofile⟩

/-- What the tag of an artifact is computed from: the key, and what the MAC covers. -/
def DiskCache.authenticated (self : DiskCache) (d : Digest) (p : WasiProfile) (artifact : Bytes) :
    Bytes × Bytes :=
  (self.config.authentication_key.bytes, tag_preimage (self.identity d p) artifact)

variable {metadata : CacheMetadata} {job : Publisher}

/-- A record that passes holds the tag of what it is checked against. -/
theorem DiskCache.check_tag {self : DiskCache} {d : Digest} {p : WasiProfile} {artifact : Bytes}
    (h : self.check E d p metadata artifact = .ok ()) :
    hexDecode metadata.authentication_tag
      = some (self.authentication_tag E (self.identity d p) artifact) := by
  unfold DiskCache.check at h
  cases hlength : artifact.length != metadata.artifact_len with
  | true =>
    rw [hlength] at h
    cases h
  | false =>
    rw [hlength, if_neg Bool.false_ne_true] at h
    cases hhex : hexDecode metadata.authentication_tag with
    | none =>
      rw [hhex] at h
      cases h
    | some supplied =>
      rw [hhex] at h
      dsimp only at h
      split at h
      · cases h
      · rename_i htag
        rw [bne_iff_ne, not_not] at htag
        rw [htag]

/-- What is asked of the parts that come from outside, for one run and one result: the decoder
reads back what was encoded and takes no part of it for the whole, and two tags are equal only
for one key and one preimage. -/
structure Trusted (E : CacheEnv) (calls : ι → DiskCall) (used : Bytes × Bytes) : Prop where
  decodes : ∀ i job, calls i = .publish job →
    E.from_slice (job.record E) = .ok (job.cache.metadata_of E job.digest job.profile job.artifact)
  incomplete : ∀ i job, calls i = .publish job → ∀ n < (job.record E).length,
    ∀ metadata, E.from_slice ((job.record E).take n) ≠ .ok metadata
  tags : {x | x = used ∨ ∃ i job, calls i = .publish job ∧
    x = job.cache.authenticated job.digest job.profile job.artifact}.InjOn
      fun x => E.crypto.hmac_sha256 x.1 x.2

variable {calls : ι → DiskCall} {self : DiskCache} {d : Digest} {p : WasiProfile}
  {artifact : Bytes}

/-- The tag that a `publish` computes. -/
def Publisher.tag (E : CacheEnv) (job : Publisher) : Bytes :=
  job.cache.authentication_tag E (job.cache.identity job.digest job.profile) job.artifact

/-- A `publish` that has begun has computed the tag of the record. -/
def Computed (E : CacheEnv) (calls : ι → DiskCall) (begun : Set ι) (metadata : CacheMetadata) :
    Prop :=
  ∃ i ∈ begun, ∃ job, calls i = .publish job ∧
    hexDecode metadata.authentication_tag = some (job.tag E)

/-- A text that reads as a record, and is no part of an artifact, is the record of a `publish`,
which has computed its tag. -/
theorem Trusted.computed {used : Bytes × Bytes} (h : Trusted E calls used) {begun : Set ι} {i : ι}
    (hi : i ∈ begun) (hjob : calls i = .publish job) {n : ℕ}
    (hdecode : E.from_slice ((job.record E).take n) = .ok metadata) :
    Computed E calls begun metadata := by
  refine ⟨i, hi, job, hjob, ?_⟩
  by_cases hn : n < (job.record E).length
  · exact absurd hdecode (h.incomplete i job hjob n hn metadata)
  · rw [List.take_of_length_le (Nat.le_of_not_lt hn), h.decodes i job hjob] at hdecode
    rw [← Except.ok.inj hdecode]
    exact hexDecode_hexEncode _

/-- The publication of an artifact for an entry, under a key and an identity. -/
def Publisher.Publishes (job : Publisher) (self : DiskCache) (d : Digest) (p : WasiProfile)
    (artifact : Bytes) : Prop :=
  job.artifact = artifact ∧ job.digest = d ∧ job.profile = p ∧
    job.cache.config.authentication_key.bytes = self.config.authentication_key.bytes ∧
    job.cache.identity job.digest job.profile = self.identity d p

/-- A `publish` that has computed the tag of a record with which an artifact is accepted is the
publication of that artifact. -/
theorem Trusted.publishes {i : ι} (h : Trusted E calls (self.authenticated d p artifact))
    (hjob : calls i = .publish job) (hcheck : self.check E d p metadata artifact = .ok ())
    (htag : hexDecode metadata.authentication_tag = some (job.tag E)) :
    job.Publishes self d p artifact := by
  have hequal : job.tag E = self.authentication_tag E (self.identity d p) artifact :=
    Option.some.inj (htag.symm.trans (DiskCache.check_tag hcheck))
  have hsame : job.cache.authenticated job.digest job.profile job.artifact
      = self.authenticated d p artifact := h.tags (.inr ⟨i, job, hjob, rfl⟩) (.inl rfl) hequal
  obtain ⟨hkey, hpreimage⟩ := Prod.mk.inj hsame
  obtain ⟨hidentity, hartifact⟩ := tag_preimage_inj hpreimage
  obtain ⟨hdigest, hprofile⟩ := DiskCache.identity_inj hidentity
  exact ⟨hartifact, hdigest, hprofile, hkey, hidentity⟩

/-- The tag of whatever record it is accepted with is the tag of the publication. -/
theorem Publisher.Publishes.tag_eq (h : job.Publishes self d p artifact)
    (hcheck : self.check E d p metadata artifact = .ok ()) :
    hexDecode metadata.authentication_tag = some (job.tag E) := by
  obtain ⟨hartifact, -, -, hkey, hidentity⟩ := h
  rw [DiskCache.check_tag hcheck, Publisher.tag, hidentity, hartifact,
    DiskCache.authentication_tag_eq, DiskCache.authentication_tag_eq, hkey]

variable [DecidableEq ι]

/-- Whatever was published, by whom and how far, and whatever became of the files: what `load`
returns for an entry was published, as the whole artifact of that entry under that key and for
that target, if and only if every part of a published artifact that reads as a record and
verifies holds a tag that some `publish` has computed. -/
theorem load_returns_published {sequence : UInt32 → UInt64} {T : DiskCalls ι}
    (hrun : DiskCalls.Run (DiskCalls.start E calls sequence) T) {i : ι}
    (hcall : calls i = .load self d p) (hloaded : T.threads i = returns (.ok (some artifact)))
    (htrusted : Trusted E calls (self.authenticated d p artifact)) :
    (∃ j ∈ T.state.begun, ∃ job, calls j = .publish job ∧ job.artifact = artifact ∧
      job.digest = d ∧ job.profile = p ∧
      job.cache.config.authentication_key.bytes = self.config.authentication_key.bytes ∧
      job.cache.identity job.digest job.profile = self.identity d p) ↔
    ∀ j ∈ T.state.begun, ∀ job, calls j = .publish job →
      ∀ n metadata, E.from_slice (job.artifact.take n) = .ok metadata →
        metadata.identity = self.identity d p → self.check E d p metadata artifact = .ok () →
        ∃ k ∈ T.state.begun, ∃ other, calls k = .publish other ∧
          hexDecode metadata.authentication_tag = some (other.cache.authentication_tag E
            (other.cache.identity other.digest other.profile) other.artifact) := by
  constructor
  · rintro ⟨k, hk, other, hother, hpublishes⟩ j - job - n metadata - - hcheck
    exact ⟨k, hk, other, hother, Publisher.Publishes.tag_eq hpublishes hcheck⟩
  · intro hparts
    obtain ⟨hsound, hreturned⟩ := hrun.sound
    obtain ⟨-, text, htext, metadata, hdecode, hidentity, hcheck⟩ :=
      hreturned i _ hloaded artifact rfl self d p ((hsound.calls i).trans hcall)
    -- The record is a part of an artifact or of a record; somebody has computed its tag.
    have hcomputed : Computed E calls T.state.begun metadata := by
      obtain ⟨j, hj, job, hjob, n, rfl | rfl⟩ := hsound.seen i text htext
      · exact hparts j hj job hjob n metadata hdecode hidentity hcheck
      · exact htrusted.computed hj hjob hdecode
    obtain ⟨k, hk, other, hother, htag⟩ := hcomputed
    exact ⟨k, hk, other, hother, htrusted.publishes hother hcheck htag⟩

end Published

/-! ## Calls one after the other

Runs that can be computed, for a witness and for the forgery below. -/

section Following

variable {ι : Type} [DecidableEq ι]

/-- An operation that does not fail. -/
def DiskHistory.answer (i : ι) (s : DiskHistory ι) (op : DiskOp) :
    Option (op.Answer × DiskHistory ι) :=
  some ((op.run s.world).1, ⟨(op.run s.world).2, update s.readings i { s.readings i with
    seen := op.reads (op.run s.world).1 ++ (s.readings i).seen }, insert i s.begun⟩)

/-- The calls take turns as the schedule says. -/
def DiskCalls.follow (T : DiskCalls ι) (schedule : List ι) : Option (DiskCalls ι) :=
  Tasks.follow DiskHistory.answer returns T schedule

/-- What is computed is a run. -/
theorem DiskCalls.follow_run {T T' : DiskCalls ι} {schedule : List ι}
    (h : T.follow schedule = some T') : DiskCalls.Run T T' := by
  refine Tasks.follow_run ?_ h
  intro i s op answer s' h
  obtain ⟨rfl, rfl⟩ := Prod.mk.inj (Option.some.inj h)
  exact ⟨_, .inl rfl, rfl⟩

/-- Two files change places. -/
def DiskCalls.swap (T : DiskCalls ι) (name name' : String) : DiskCalls ι where
  state := { T.state with world := { T.state.world with
    dir := update (update T.state.world.dir name (T.state.world.dir name')) name'
      (T.state.world.dir name) } }
  threads := T.threads

theorem DiskCalls.swap_run (T : DiskCalls ι) (name name' : String) :
    DiskCalls.Run T (T.swap name name') :=
  .single (.env _ _ ⟨_, .swapped name name', rfl⟩)

end Following

/-- A publication, and a call that loads the entry. -/
def publishAndLoad : Bool → DiskCall
  | false => .publish (twoPublishers false)
  | true => .load sampleCache sampleDigest .Cli0_2

theorem twoPublishers_record : (twoPublishers false).record sampleCacheEnv
    = Json.render sampleCacheMetadata.to_json := by
  show Json.render (sampleCache.metadata_of sampleCacheEnv sampleDigest .Cli0_2
    sampleAot).to_json = _
  rw [sampleCache_metadata_of]

theorem publishAndLoad_trusted : Trusted sampleCacheEnv publishAndLoad
    (sampleCache.authenticated sampleDigest .Cli0_2 sampleAot) where
  decodes i job hjob := by
    cases i with
    | true => cases hjob
    | false =>
      obtain rfl := DiskCall.publish.inj hjob
      show _ = Except.ok (sampleCache.metadata_of sampleCacheEnv sampleDigest .Cli0_2 sampleAot)
      rw [twoPublishers_record, sampleCache_metadata_of]
      exact sampleCacheEnv_decodes
  incomplete i job hjob n hn metadata := by
    cases i with
    | true => cases hjob
    | false =>
      obtain rfl := DiskCall.publish.inj hjob
      rw [twoPublishers_record] at hn ⊢
      -- The table has the whole text only.
      have hne : (Json.render sampleCacheMetadata.to_json).take n
          ≠ Json.render sampleCacheMetadata.to_json := by
        intro heq
        have hlen := congrArg List.length heq
        rw [List.length_take] at hlen
        omega
      simp only [sampleCacheEnv, if_neg hne]
      exact fun hcontra => by cases hcontra
  tags := by
    rintro x hx y hy -
    have hall : ∀ z, (z = sampleCache.authenticated sampleDigest .Cli0_2 sampleAot ∨
        ∃ i job, publishAndLoad i = .publish job ∧
          z = job.cache.authenticated job.digest job.profile job.artifact) →
        z = sampleCache.authenticated sampleDigest .Cli0_2 sampleAot := by
      rintro z (rfl | ⟨i, job, hjob, rfl⟩)
      · rfl
      · cases i with
        | true => cases hjob
        | false =>
          obtain rfl := DiskCall.publish.inj hjob
          rfl
    rw [hall x hx, hall y hy]

/-- No part of an artifact of three bytes is a record. -/
theorem publishAndLoad_artifacts (j : Bool) (job : Publisher)
    (hjob : publishAndLoad j = .publish job) (n : ℕ) (metadata : CacheMetadata) :
    sampleCacheEnv.from_slice (job.artifact.take n) ≠ .ok metadata := by
  cases j with
  | true => cases hjob
  | false =>
    obtain rfl := DiskCall.publish.inj hjob
    have hlong : 3 < (Json.render sampleCacheMetadata.to_json).length := by decide +kernel
    have hne : sampleAot.take n ≠ Json.render sampleCacheMetadata.to_json := by
      intro heq
      have hlen := congrArg List.length heq
      rw [List.length_take, show sampleAot.length = 3 from rfl] at hlen
      omega
    show sampleCacheEnv.from_slice (sampleAot.take n) ≠ .ok metadata
    simp only [sampleCacheEnv, if_neg hne]
    exact fun hcontra => by cases hcontra

/-- The second after the first: it is loaded, and was published. -/
theorem load_returns_published_one :
    ∃ T, DiskCalls.Run (DiskCalls.start sampleCacheEnv publishAndLoad fun _ => 0) T ∧
      T.threads true = returns (.ok (some sampleAot)) ∧
      ∃ j ∈ T.state.begun, ∃ job, publishAndLoad j = .publish job ∧ job.artifact = sampleAot := by
  have hcomputed : ((DiskCalls.start sampleCacheEnv publishAndLoad fun _ => 0).follow
      (List.replicate 8 false ++ List.replicate 8 true)).map (Tasks.result · true)
        = some (some (.ok (some sampleAot))) := by decide +kernel
  obtain ⟨T, hT, hresult⟩ := Option.map_eq_some_iff.mp hcomputed
  have hrun := DiskCalls.follow_run hT
  have hloaded : T.threads true = returns (.ok (some sampleAot)) := Tasks.threads_of_result hresult
  obtain ⟨j, hj, job, hjob, hartifact, -⟩ :=
    (load_returns_published hrun rfl hloaded publishAndLoad_trusted).mpr
      fun j _ job hjob n metadata hdecode =>
        absurd hdecode (publishAndLoad_artifacts j job hjob n metadata)
  exact ⟨T, hrun, hloaded, j, hj, job, hjob, hartifact⟩

/-! ## A record published as an artifact

Whoever can have a text of their choice published can have a record published, under another
profile. -/

/-- The text of the record of an entry that is never published. -/
def forgedRecord : Bytes := Json.render sampleCacheMetadata.to_json

/-- An artifact is published for one profile, and the record, as an artifact, for another; the
third call loads the entry that the record names. -/
def forgeryCalls : Fin 3 → DiskCall
  | 0 => .publish ⟨sampleCache, 1, sampleDigest, .Cli0_3, sampleAot⟩
  | 1 => .publish ⟨sampleCache, 2, sampleDigest, .Http0_2, forgedRecord⟩
  | 2 => .load sampleCache sampleDigest .Cli0_2

/-- What is authenticated: by the record, and by the two publications. -/
def forgeryInput : Fin 3 → Bytes × Bytes
  | 0 => sampleCache.authenticated sampleDigest .Cli0_2 sampleAot
  | 1 => sampleCache.authenticated sampleDigest .Cli0_3 sampleAot
  | 2 => sampleCache.authenticated sampleDigest .Http0_2 forgedRecord

/-- The tags, each HMAC-SHA256 of its input. -/
def forgeryTag : Fin 3 → Bytes
  | 0 => sampleAotTag
  | 1 => be 32 0x329a2b97712eeff10f8743134ff4d357478c9d27184d8e6ab571e7ab5442e181
  | 2 => be 32 0xb449a02763a1678682e491b5cd51bd6311dac165bc88401eb285aefac33769d9

/-- HMAC-SHA256 at the three inputs. -/
def forgeryHmac (input : Bytes × Bytes) : Bytes :=
  if input = forgeryInput 0 then forgeryTag 0
  else if input = forgeryInput 1 then forgeryTag 1
  else if input = forgeryInput 2 then forgeryTag 2
  else be 32 0

theorem forgeryTag_length (i : Fin 3) : (forgeryTag i).length = 32 := by
  match i with
  | 0 | 1 | 2 => exact be_length 32 _

/-- The primitives. -/
def forgeryCrypto : Crypto where
  sha256 := sampleCacheCrypto.sha256
  hmac_sha256 key bytes := forgeryHmac (key, bytes)
  sha256_length := sampleCacheCrypto.sha256_length
  hmac_sha256_length key bytes := by
    unfold forgeryHmac
    split
    · exact forgeryTag_length 0
    · split
      · exact forgeryTag_length 1
      · split
        · exact forgeryTag_length 2
        · exact be_length 32 0

/-- The records of the two publications. -/
def forgeryMetadata : Bool → CacheMetadata
  | false => ⟨sampleCache.identity sampleDigest .Cli0_3, 3,
      "329a2b97712eeff10f8743134ff4d357478c9d27184d8e6ab571e7ab5442e181"⟩
  | true => ⟨sampleCache.identity sampleDigest .Http0_2, 383,
      "b449a02763a1678682e491b5cd51bd6311dac165bc88401eb285aefac33769d9"⟩

/-- The decoder at the three texts. -/
def forgeryEnv : CacheEnv where
  crypto := forgeryCrypto
  from_slice bytes :=
    if bytes = forgedRecord then .ok sampleCacheMetadata
    else if bytes = Json.render (forgeryMetadata false).to_json then .ok (forgeryMetadata false)
    else if bytes = Json.render (forgeryMetadata true).to_json then .ok (forgeryMetadata true)
    else .error "EOF while parsing a value at line 1 column 0"

/-- The artifact takes the place of the artifact of the entry, and the record that of its
record. -/
def DiskCalls.forge (T : DiskCalls (Fin 3)) : DiskCalls (Fin 3) :=
  (T.swap (file_name sampleDigest .Cli0_3 .artifact)
    (file_name sampleDigest .Cli0_2 .artifact)).swap
    (file_name sampleDigest .Http0_2 .artifact) (file_name sampleDigest .Cli0_2 .metadata)

/-- Both publications end, the files change places, and the entry loads. -/
theorem forged_loads : (((DiskCalls.start forgeryEnv forgeryCalls fun _ => 0).follow
    (List.replicate 8 0 ++ List.replicate 8 1)).bind fun T => T.forge.follow
      (List.replicate 8 2)).map (Tasks.result · 2) = some (some (.ok (some sampleAot))) := by
  decide +kernel

theorem forgeryHmac_input (i : Fin 3) : forgeryHmac (forgeryInput i) = forgeryTag i := by
  have hinputs : forgeryInput 1 ≠ forgeryInput 0 ∧ forgeryInput 2 ≠ forgeryInput 0 ∧
      forgeryInput 2 ≠ forgeryInput 1 := by decide +kernel
  obtain ⟨h₁, h₂, h₃⟩ := hinputs
  unfold forgeryHmac
  match i with
  | 0 => rw [if_pos rfl]
  | 1 => rw [if_neg h₁, if_pos rfl]
  | 2 => rw [if_neg h₂, if_neg h₃, if_pos rfl]

theorem forgeryTag_injective : ∀ i j, forgeryTag i = forgeryTag j → i = j := by decide +kernel

/-- Nothing else is authenticated. -/
theorem forgery_used {x : Bytes × Bytes}
    (hx : x = sampleCache.authenticated sampleDigest .Cli0_2 sampleAot ∨
      ∃ i job, forgeryCalls i = .publish job ∧
        x = job.cache.authenticated job.digest job.profile job.artifact) :
    ∃ i, x = forgeryInput i := by
  rcases hx with rfl | ⟨i, job, hjob, rfl⟩
  · exact ⟨0, rfl⟩
  · match i with
    | 0 =>
      obtain rfl := DiskCall.publish.inj hjob
      exact ⟨1, rfl⟩
    | 1 =>
      obtain rfl := DiskCall.publish.inj hjob
      exact ⟨2, rfl⟩
    | 2 => cases hjob

theorem forgery_tags : {x | x = sampleCache.authenticated sampleDigest .Cli0_2 sampleAot ∨
    ∃ i job, forgeryCalls i = .publish job ∧
      x = job.cache.authenticated job.digest job.profile job.artifact}.InjOn
        fun x => forgeryEnv.crypto.hmac_sha256 x.1 x.2 := by
  intro x hx y hy hequal
  replace hequal : forgeryHmac x = forgeryHmac y := hequal
  obtain ⟨i, rfl⟩ := forgery_used hx
  obtain ⟨j, rfl⟩ := forgery_used hy
  rw [forgeryHmac_input, forgeryHmac_input] at hequal
  rw [forgeryTag_injective i j hequal]

theorem forgery_metadata (second : Bool) (job : Publisher)
    (hjob : forgeryCalls (if second then 1 else 0) = .publish job) :
    job.cache.metadata_of forgeryEnv job.digest job.profile job.artifact
      = forgeryMetadata second := by
  cases second with
  | false =>
    obtain rfl := DiskCall.publish.inj hjob
    decide +kernel
  | true =>
    obtain rfl := DiskCall.publish.inj hjob
    decide +kernel

/-- None of the three texts begins with another. -/
theorem forgery_apart : ∀ second,
    ¬ forgedRecord <+: Json.render (forgeryMetadata second).to_json ∧
      ∀ other, other ≠ second → ¬ Json.render (forgeryMetadata other).to_json
        <+: Json.render (forgeryMetadata second).to_json := by
  decide +kernel

/-- So none is an initial part of another. -/
theorem forgery_texts (second : Bool) {n : ℕ}
    (hn : n < (Json.render (forgeryMetadata second).to_json).length) :
    (Json.render (forgeryMetadata second).to_json).take n ≠ forgedRecord ∧
      ∀ other, (Json.render (forgeryMetadata second).to_json).take n
        ≠ Json.render (forgeryMetadata other).to_json := by
  obtain ⟨hforged, hothers⟩ := forgery_apart second
  refine ⟨fun heq => hforged (heq ▸ List.take_prefix _ _), fun other heq => ?_⟩
  by_cases hother : other = second
  · subst hother
    have hlen := congrArg List.length heq
    rw [List.length_take] at hlen
    omega
  · exact hothers other hother (heq ▸ List.take_prefix _ _)

theorem forgery_decodes (second : Bool) :
    forgeryEnv.from_slice (Json.render (forgeryMetadata second).to_json)
      = .ok (forgeryMetadata second) := by
  cases second <;> decide +kernel

/-- All that is assumed holds of the forgery. -/
theorem forgery_trusted : Trusted forgeryEnv forgeryCalls
    (sampleCache.authenticated sampleDigest .Cli0_2 sampleAot) := by
  have hrecord : ∀ i job, forgeryCalls i = .publish job → ∃ second,
      job.cache.metadata_of forgeryEnv job.digest job.profile job.artifact
        = forgeryMetadata second := by
    intro i job hjob
    match i with
    | 0 => exact ⟨false, forgery_metadata false job hjob⟩
    | 1 => exact ⟨true, forgery_metadata true job hjob⟩
    | 2 => cases hjob
  refine ⟨?_, ?_, forgery_tags⟩
  · intro i job hjob
    obtain ⟨second, hmetadata⟩ := hrecord i job hjob
    unfold Publisher.record
    rw [hmetadata]
    exact forgery_decodes second
  · intro i job hjob n hn metadata
    obtain ⟨second, hmetadata⟩ := hrecord i job hjob
    unfold Publisher.record at hn ⊢
    rw [hmetadata] at hn ⊢
    obtain ⟨hforged, hothers⟩ := forgery_texts second hn
    simp only [forgeryEnv, if_neg hforged, if_neg (hothers false), if_neg (hothers true)]
    exact fun hcontra => by cases hcontra

/-- The record that was published as an artifact makes `load` return an artifact that was never
published for the entry. -/
theorem record_published_as_artifact : ∃ T,
    DiskCalls.Run (DiskCalls.start forgeryEnv forgeryCalls fun _ => 0) T ∧
    forgeryCalls 2 = .load sampleCache sampleDigest .Cli0_2 ∧
    T.threads 2 = returns (.ok (some sampleAot)) ∧
    Trusted forgeryEnv forgeryCalls (sampleCache.authenticated sampleDigest .Cli0_2 sampleAot) ∧
    ∀ j job, forgeryCalls j = .publish job →
      ¬ (job.artifact = sampleAot ∧ job.digest = sampleDigest ∧ job.profile = .Cli0_2) := by
  obtain ⟨T, hT, hresult⟩ := Option.map_eq_some_iff.mp forged_loads
  obtain ⟨T₁, hpublished, hloaded⟩ := Option.bind_eq_some_iff.mp hT
  refine ⟨T, ?_, rfl, Tasks.threads_of_result hresult, forgery_trusted, ?_⟩
  · exact (((DiskCalls.follow_run hpublished).trans (DiskCalls.swap_run _ _ _)).trans
      (DiskCalls.swap_run _ _ _)).trans (DiskCalls.follow_run hloaded)
  · rintro j job hjob ⟨-, -, hprofile⟩
    match j with
    | 0 | 1 =>
      obtain rfl := DiskCall.publish.inj hjob
      cases hprofile
    | 2 => cases hjob

end WasmRuntime.Cache
