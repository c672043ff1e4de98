/-
Any number of processes publishing into one directory.

Each publisher is a thread that runs `DiskCache::publish`; a step of the whole is one file operation
of one thread, and the interleaving is arbitrary. What a run without an I/O error leaves behind is
settled by two arguments, one about names and one about the text of the program. Neither needs the
process identifiers to be distinct: they are what keeps the renames from failing
(`publishRun_of_plain`).
-/
import WasmRuntime.DiskCache

set_option autoImplicit false

namespace WasmRuntime.Cache

open ByteCodec Prog Function

/-! ## The system

All who publish an entry publish the same bytes under one key and target. A publisher whose artifact
is over its own limit is refused and writes nothing. -/

/-- One call of `publish`, in a process. -/
structure Publisher where
  cache : DiskCache
  pid : UInt32
  digest : Digest
  profile : WasiProfile
  artifact : Bytes

namespace Publisher

variable (E : CacheEnv) (job : Publisher)

/-- What the publisher runs. -/
def program : DiskM Unit := job.cache.publish E job.pid job.digest job.profile job.artifact

/-- The size check at the head of `publish` passes. -/
def Admitted : Prop := job.artifact.length ≤ job.cache.config.max_entry_bytes

/-- The name of one of the publisher's files. -/
def file (kind : FileKind) : String := file_name job.digest job.profile kind

/-- What the publisher puts into it. -/
def contents (kind : FileKind) : Bytes :=
  job.cache.file_contents E job.digest job.profile job.artifact kind

end Publisher

/-- A name that `atomic_publish` renames away. -/
def FileKind.Temporary : FileKind → Prop
  | .artifact | .metadata => False
  | .artifactTemp _ | .metadataTemp _ => True

/-- The operation reported no error. -/
def DiskOp.ok : (op : DiskOp) → op.Answer → Prop
  | .fs op, answer => op.ok answer
  | .fetch_add _, _ => True

/-- One operation of a run without an I/O error. -/
def disk_step (w : World) (op : DiskOp) (answer : op.Answer) (w' : World) : Prop :=
  plain_step w op answer w' ∧ op.ok answer

/-- What the publishers have in common with each other and with a reader: the key and the
target, one artifact for each entry, of a size the reader takes, and a decoder that reads
back the records they write. -/
structure Agree {ι : Type} (E : CacheEnv) (reader : DiskCache) (jobs : ι → Publisher) : Prop where
  key : ∀ i, (jobs i).cache.config.authentication_key = reader.config.authentication_key
  target : ∀ i, (jobs i).cache.target = reader.target
  artifact : ∀ i j, (jobs i).digest = (jobs j).digest → (jobs i).profile = (jobs j).profile →
    (jobs i).artifact = (jobs j).artifact
  fits : ∀ i, (jobs i).artifact.length ≤ reader.config.max_entry_bytes
  decodes : ∀ i, E.from_slice (Json.render (reader.metadata_of E (jobs i).digest (jobs i).profile
      (jobs i).artifact).to_json)
    = .ok (reader.metadata_of E (jobs i).digest (jobs i).profile (jobs i).artifact)

/-! ## What a name says about the file

Every file of the cache has a name that says which entry it belongs to and which of its two files it
is or will become (`file_name_inj`); so the name already determines what any publisher may put there
(`Expected`). -/

section Names

variable {ι : Type} {E : CacheEnv} {reader : DiskCache} {jobs : ι → Publisher}

/-- The bytes an admitted publisher puts under a name. -/
def Expected (E : CacheEnv) (jobs : ι → Publisher) (name : String) (bytes : Bytes) : Prop :=
  ∃ i kind, (jobs i).Admitted ∧ name = (jobs i).file kind ∧ bytes = (jobs i).contents E kind

/-- The name of a temporary of an admitted publisher. -/
def TemporaryName (jobs : ι → Publisher) (name : String) : Prop :=
  ∃ i kind, (jobs i).Admitted ∧ name = (jobs i).file kind ∧ kind.Temporary

/-- The record depends on key and target, which are the same for all. -/
theorem Agree.metadata_of (hagree : Agree E reader jobs) (i : ι) (d : Digest) (p : WasiProfile)
    (artifact : Bytes) :
    (jobs i).cache.metadata_of E d p artifact = reader.metadata_of E d p artifact :=
  DiskCache.metadata_of_congr (hagree.key i) (hagree.target i) d p artifact

/-- The name determines the bytes. -/
theorem Agree.expected_unique (hagree : Agree E reader jobs) {name : String} {b b' : Bytes}
    (h : Expected E jobs name b) (h' : Expected E jobs name b') : b = b' := by
  obtain ⟨i, kind, -, rfl, rfl⟩ := h
  obtain ⟨j, kind', -, hname, rfl⟩ := h'
  obtain ⟨hd, hp, rfl⟩ := file_name_inj hname
  have ha := hagree.artifact i j hd hp
  cases kind with
  | artifact | artifactTemp => exact ha
  | metadata | metadataTemp =>
    rw [Publisher.contents, Publisher.contents, DiskCache.file_contents, DiskCache.file_contents,
      hagree.metadata_of, hagree.metadata_of, hd, hp, ha]

theorem file_not_temporary {i : ι} {kind : FileKind} (hkind : ¬ kind.Temporary) :
    ¬ TemporaryName jobs ((jobs i).file kind) := by
  rintro ⟨j, kind', -, hname, htemp⟩
  obtain ⟨-, -, rfl⟩ := file_name_inj hname
  exact hkind htemp

end Names

/-! ## What the threads rely on

Each thread relies on exactly this of the others, and a temporary it finds is a temporary with the
bytes it wrote itself. -/

section Rely

variable {ι : Type} {E : CacheEnv} {reader : DiskCache} {jobs : ι → Publisher}

/-- Each file is as it was, or holds what its name says, or was a temporary and is gone. -/
def DiskRely (E : CacheEnv) (jobs : ι → Publisher) (w w' : World) : Prop :=
  ∀ name, w'.dir name = w.dir name ∨
    (∃ bytes, Expected E jobs name bytes ∧ w'.dir name = some bytes) ∨
    (TemporaryName jobs name ∧ w'.dir name = none)

/-- The logic of the publishers: everyone promises what everyone relies on. -/
def publisherLogic (E : CacheEnv) (jobs : ι → Publisher) : Rg World DiskOp DiskOp.Answer where
  rely := DiskRely E jobs
  step := plain_step
  guar w _ _ w' := DiskRely E jobs w w'
  rely_refl _ _ := .inl rfl
  rely_trans w w' w'' h h' name := by
    rcases h' name with hsame | hother
    · rw [hsame]
      exact h name
    · exact .inr hother

/-- What a logic needs for the publication of a file: the steps are those of the disk, the
others do no more than they may, and what `atomic_publish` does before its rename is always
allowed. -/
structure PublishLogic (E : CacheEnv) (jobs : ι → Publisher) (L : Rg World DiskOp DiskOp.Answer) :
    Prop where
  step : ∀ w op r w', L.step w op r w' → plain_step w op r w'
  rely : ∀ w w', L.rely w w' → DiskRely E jobs w w'
  guar : ∀ w op r w', L.guar w op r w' → L.rely w w'
  quiet : ∀ w op r w', w'.dir = w.dir → L.guar w op r w'
  write : ∀ w name bytes r, Expected E jobs name bytes → TemporaryName jobs name →
    L.guar w (.fs (.write name bytes)) r
      { w with dir := update w.dir name (some bytes) }

/-- If the file is there it holds these bytes: what a thread knows of its temporary. -/
def HoldsIf (name : String) (bytes : Bytes) (w : World) : Prop :=
  ∀ found, w.dir name = some found → found = bytes

theorem Agree.holdsIf_stable (hagree : Agree E reader jobs) {name : String} {bytes : Bytes}
    (hexp : Expected E jobs name bytes) {w w' : World} (hrely : DiskRely E jobs w w')
    (h : HoldsIf name bytes w) : HoldsIf name bytes w' := by
  intro found hfound
  rcases hrely name with hsame | ⟨b, hb, hsome⟩ | ⟨-, hnone⟩
  · exact h found (hsame ▸ hfound)
  · rw [hsome] at hfound
    cases hfound
    exact hagree.expected_unique hb hexp
  · rw [hnone] at hfound
    cases hfound

/-- A file in place stays. -/
theorem Agree.holds_stable (hagree : Agree E reader jobs) {name : String} {bytes : Bytes}
    (hexp : Expected E jobs name bytes) (hfinal : ¬ TemporaryName jobs name) {w w' : World}
    (hrely : DiskRely E jobs w w') (h : w.dir name = some bytes) : w'.dir name = some bytes := by
  rcases hrely name with hsame | ⟨b, hb, hsome⟩ | ⟨htemp, -⟩
  · rw [hsame, h]
  · rw [hsome, hagree.expected_unique hb hexp]
  · exact absurd htemp hfinal

/-- Writing what the name says. -/
theorem rely_write {name : String} {bytes : Bytes} (hexp : Expected E jobs name bytes) (w : World) :
    DiskRely E jobs w { w with dir := update w.dir name (some bytes) } := by
  intro other
  by_cases hother : other = name
  · subst hother
    exact .inr (.inl ⟨bytes, hexp, update_self _ _ _⟩)
  · exact .inl (update_of_ne hother _ _)

/-- Renaming a temporary that holds what its new name says. -/
theorem rely_rename {src dst : String} {bytes : Bytes} (hsrc : TemporaryName jobs src)
    (hexp : Expected E jobs dst bytes) (w : World) :
    DiskRely E jobs w { w with dir := w.dir.renamed src dst bytes } := by
  intro other
  by_cases hdst : other = dst
  · subst hdst
    exact .inr (.inl ⟨bytes, hexp, Dir.renamed_dst _ _ _ _⟩)
  by_cases hother : other = src
  · subst hother
    exact .inr (.inr ⟨hsrc, Dir.renamed_src _ _ hdst⟩)
  · exact .inl (Dir.renamed_of_ne _ _ hother hdst)

end Rely

/-! ## One thread among the others

`atomic_publish` first, in any logic that allows for its three operations, then the whole
program. -/

section Thread

variable {ι : Type} {E : CacheEnv} {reader : DiskCache} {jobs : ι → Publisher} {w w' : World}

theorem publishLogic_publisherLogic : PublishLogic E jobs (publisherLogic E jobs) where
  step _ _ _ _ h := h
  rely _ _ h := h
  guar _ _ _ _ h := h
  quiet _ _ _ _ h name := .inl (congrFun h name)
  write w _ _ _ hexp _ := rely_write hexp w

variable {L : Rg World DiskOp DiskOp.Answer}

/-- The three operations on a temporary, among others who put nothing else there: if the
last succeeds, the path holds the bytes, and keeps them. What the rename may count on is
`I`, which has to last until then. -/
theorem Agree.rename_safe (hagree : Agree E reader jobs) (hL : PublishLogic E jobs L)
    {temporary path : String} {bytes : Bytes} {I : World → Prop}
    (hpath : Expected E jobs path bytes) (hfinal : ¬ TemporaryName jobs path)
    (hexp : Expected E jobs temporary bytes) (htemp : TemporaryName jobs temporary)
    (hI : ∀ w w', L.rely w w' → I w → I w')
    (hrename : ∀ w r, I w → L.guar w (.fs (.rename temporary path)) r
      { w with dir := w.dir.renamed temporary path bytes }) (hw : I w) :
    L.Safe (fun r w => r = .ok () → w.dir path = some bytes)
      (do
        write temporary bytes
        set_private_file temporary
        rename temporary path : DiskM Unit) w := by
  have herror : ∀ (e : Error) (w : World), L.Safe (fun r w => r = .ok () → w.dir path = some bytes)
      (.ret (.error e) : Prog DiskOp DiskOp.Answer (Except Error Unit)) w :=
    fun e w w' _ hok => nomatch hok
  intro w₁ hrely₁ r w₂ hstep
  obtain ⟨rfl, rfl⟩ := plain_write (hL.step _ _ _ _ hstep)
  have hguar := hL.write w₁ temporary bytes (.ok ()) hexp htemp
  have hI₂ := hI _ _ (hL.guar _ _ _ _ hguar) (hI _ _ hrely₁ hw)
  refine ⟨hguar, ?_⟩
  -- From here on the temporary is gone or holds the bytes.
  have hholds : HoldsIf temporary bytes
      { w₁ with dir := update w₁.dir temporary (some bytes) } := by
    intro found hfound
    dsimp only at hfound
    rw [update_self] at hfound
    exact (Option.some.inj hfound).symm
  intro w₃ hrely₃ r w₄ hstep
  obtain rfl := plain_set_permissions (hL.step _ _ _ _ hstep)
  refine ⟨hL.quiet _ _ _ _ rfl, ?_⟩
  cases r with
  | error message => exact herror _ _
  | ok =>
    intro w₅ hrely₅ r w₆ hstep
    rcases plain_rename (hL.step _ _ _ _ hstep) with ⟨rfl, found, hfound, rfl⟩ | ⟨rfl, rfl⟩
    · obtain rfl := hagree.holdsIf_stable hexp (hL.rely _ _ hrely₅)
        (hagree.holdsIf_stable hexp (hL.rely _ _ hrely₃) hholds) found hfound
      refine ⟨hrename w₅ _ (hI _ _ hrely₅ (hI _ _ hrely₃ hI₂)), ?_⟩
      intro w₇ hrely₇ _
      exact hagree.holds_stable hpath hfinal (hL.rely _ _ hrely₇) (Dir.renamed_dst _ _ _ _)
    · exact ⟨hL.quiet _ _ _ _ rfl, herror _ _⟩

/-- `atomic_publish` of what its names say, among others who do the same. -/
theorem Agree.atomic_publish_safe (hagree : Agree E reader jobs) (hL : PublishLogic E jobs L)
    {pid : UInt32} {path : String} {bytes : Bytes} {I : World → Prop}
    (hpath : Expected E jobs path bytes) (hfinal : ¬ TemporaryName jobs path)
    (htemp : ∀ tag, Expected E jobs (with_extension path ("tmp-" ++ tag)) bytes ∧
      TemporaryName jobs (with_extension path ("tmp-" ++ tag)))
    (hI : ∀ w w', L.rely w w' → I w → I w')
    (hrename : ∀ w temporary r, TemporaryName jobs temporary → I w →
      L.guar w (.fs (.rename temporary path)) r
        { w with dir := w.dir.renamed temporary path bytes }) (hw : I w) :
    L.Safe (fun r w => r = .ok () → w.dir path = some bytes)
      (atomic_publish pid path bytes) w := by
  intro w₁ hrely₁ sequence w₂ hstep
  have hguar := hL.quiet w₁ (.fetch_add pid) sequence w₂
    (plain_fetch_add (hL.step _ _ _ _ hstep))
  refine ⟨hguar, ?_⟩
  obtain ⟨hexp, hname⟩ := htemp (Nat.repr pid.toNat ++ "-" ++ Nat.repr sequence.toNat)
  exact hagree.rename_safe hL hpath hfinal hexp hname hI
    (fun w r => hrename w _ r hname) (hI _ _ (hL.guar _ _ _ _ hguar) (hI _ _ hrely₁ hw))

theorem Publisher.artifact_temporary (job : Publisher) (tag : String) :
    with_extension (job.file .artifact) ("tmp-" ++ tag) = job.file (.artifactTemp tag) :=
  artifact_with_extension _ _ tag

theorem Publisher.metadata_temporary (job : Publisher) (tag : String) :
    with_extension (job.file .metadata) ("tmp-" ++ tag) = job.file (.metadataTemp tag) :=
  metadata_with_extension _ _ tag

/-- The program of an admitted publisher is two publications. -/
theorem Publisher.program_admitted {job : Publisher} (hadm : job.Admitted) :
    job.program E = (do
      atomic_publish job.pid (job.file .artifact) (job.contents E .artifact)
      atomic_publish job.pid (job.file .metadata) (job.contents E .metadata) : DiskM Unit) := by
  unfold Publisher.program DiskCache.publish
  rw [paths_eq, decide_eq_false (Nat.not_lt.mpr hadm), Fallible.reject_false_bind]
  rfl

theorem Publisher.program_refused {job : Publisher} (hadm : ¬ job.Admitted) :
    job.program E = Fallible.throw (.Cache "artifact exceeds the configured limit") := by
  unfold Publisher.program DiskCache.publish
  rw [decide_eq_true (Nat.lt_of_not_le hadm), Fallible.reject_true_bind]

/-- What a publisher has achieved when it returns `Ok`. -/
def Publisher.Done (E : CacheEnv) (job : Publisher) (r : Except Error Unit) (w : World) : Prop :=
  r = .ok () → job.Admitted ∧
    w.dir (job.file .artifact) = some (job.contents E .artifact) ∧
    w.dir (job.file .metadata) = some (job.contents E .metadata)

/-- A publisher among the others. -/
theorem Agree.program_safe (hagree : Agree E reader jobs) (i : ι) :
    (publisherLogic E jobs).Safe ((jobs i).Done E) ((jobs i).program E) w := by
  by_cases hadm : (jobs i).Admitted
  · have hexp : ∀ kind, Expected E jobs ((jobs i).file kind) ((jobs i).contents E kind) :=
      fun kind => ⟨i, kind, hadm, rfl, rfl⟩
    have hart : ¬ TemporaryName jobs ((jobs i).file .artifact) := file_not_temporary nofun
    have hmeta : ¬ TemporaryName jobs ((jobs i).file .metadata) := file_not_temporary nofun
    rw [Publisher.program_admitted hadm]
    refine .bindF (hagree.atomic_publish_safe (I := fun _ => True) publishLogic_publisherLogic
      (hexp .artifact) hart ?_ (fun _ _ _ h => h)
      (fun w _ _ htemp _ => rely_rename htemp (hexp .artifact) w) trivial) ?_ ?_
    · intro tag
      rw [Publisher.artifact_temporary]
      exact ⟨hexp (.artifactTemp tag), i, _, hadm, rfl, trivial⟩
    · -- The second publication leaves the first file where it is.
      intro _ w₁ hfirst
      have hstay : ∀ w w', DiskRely E jobs w w' →
          w.dir ((jobs i).file .artifact) = some ((jobs i).contents E .artifact) →
          w'.dir ((jobs i).file .artifact) = some ((jobs i).contents E .artifact) :=
        fun _ _ hrely => hagree.holds_stable (hexp .artifact) hart hrely
      refine .mono (Rg.Safe.frame (fun _ _ _ _ h => h) hstay
        (hagree.atomic_publish_safe (I := fun _ => True) publishLogic_publisherLogic
          (hexp .metadata) hmeta ?_ (fun _ _ _ h => h)
          (fun w _ _ htemp _ => rely_rename htemp (hexp .metadata) w) trivial) (hfirst rfl)) ?_
      · intro tag
        rw [Publisher.metadata_temporary]
        exact ⟨hexp (.metadataTemp tag), i, _, hadm, rfl, trivial⟩
      · rintro r w₂ ⟨hsecond, hfirst'⟩ hok
        exact ⟨hadm, hfirst', hsecond hok⟩
    · intro e w₁ _ w₂ _ hok
      cases hok
  · rw [Publisher.program_refused hadm]
    intro w₁ _ hok
    cases hok

/-- Nothing is asked of an operation, and each reports success. -/
def okContract : Contract DiskOp DiskOp.Answer := ⟨fun _ => True, DiskOp.ok⟩

theorem atomic_publish_ok_meets {pid : UInt32} {path : String} {bytes : Bytes} :
    okContract.Meets (fun r => r = .ok ()) (atomic_publish pid path bytes) := by
  refine ⟨trivial, ?_⟩
  intro sequence _
  refine ⟨trivial, ?_⟩
  rintro _ rfl
  refine ⟨trivial, ?_⟩
  rintro _ rfl
  refine ⟨trivial, ?_⟩
  rintro _ rfl
  rfl

/-- If no operation fails, an admitted publisher returns `Ok`. -/
theorem Publisher.program_ok_meets (job : Publisher) :
    okContract.Meets (fun r => job.Admitted → r = .ok ()) (job.program E) := by
  by_cases hadm : job.Admitted
  · rw [Publisher.program_admitted hadm]
    refine .bind atomic_publish_ok_meets ?_
    rintro _ rfl
    exact .mono atomic_publish_ok_meets fun _ h _ => h
  · rw [Publisher.program_refused hadm]
    exact fun h => absurd h hadm

end Thread

/-! ## No temporary stays behind

A thread that has written a temporary will rename it before it returns, so while a temporary stands
some thread is still to rename it, and when all have returned none stands. -/

section Tidy

variable {ι : Type} {E : CacheEnv} {jobs : ι → Publisher} {w w' : World}

/-- The operation renames this file. -/
def Renames (name : String) (op : DiskOp) : Prop := ∃ dst, op = .fs (.rename name dst)

/-- The discipline of `publish`: what it writes it will rename, and what it renames it
renames to a name that is not a temporary's. -/
def Tidy (jobs : ι → Publisher) :
    (op : DiskOp) → (op.Answer → Prog DiskOp DiskOp.Answer (Except Error Unit)) → Prop
  | .fs (.write name _), k => (k (.ok ())).Will DiskOp.ok (Renames name)
  | .fs (.rename _ dst), _ => ¬ TemporaryName jobs dst
  | _, _ => True

theorem atomic_publish_tidy {pid : UInt32} {path : String} {bytes : Bytes}
    (hfinal : ¬ TemporaryName jobs path) :
    Always DiskOp.ok (Tidy jobs) (atomic_publish pid path bytes) := by
  refine ⟨trivial, ?_⟩
  intro sequence _
  refine ⟨.inr ?_, ?_⟩
  · -- After the write come the permissions, and then the rename.
    rintro _ rfl
    exact .inl ⟨path, rfl⟩
  · rintro _ rfl
    refine ⟨trivial, ?_⟩
    rintro _ rfl
    refine ⟨hfinal, ?_⟩
    rintro _ rfl
    exact trivial

variable {op : DiskOp} {k : op.Answer → Prog DiskOp DiskOp.Answer (Except Error Unit)}

theorem Tidy.bind {f : Except Error Unit → Prog DiskOp DiskOp.Answer (Except Error Unit)}
    (h : Tidy jobs op k) : Tidy jobs op fun r => k r >>= f := by
  cases op with
  | fetch_add pid => exact trivial
  | fs op =>
    cases op with
    | write name bytes => exact Will.bind h
    | rename src dst => exact h
    | exists_ | is_file | read | set_permissions => exact trivial

/-- A publisher keeps the discipline. -/
theorem Publisher.program_tidy (i : ι) :
    Always DiskOp.ok (Tidy jobs) ((jobs i).program E) := by
  by_cases hadm : (jobs i).Admitted
  · have hart : ¬ TemporaryName jobs ((jobs i).file .artifact) :=
      file_not_temporary (show ¬ False from id)
    have hmeta : ¬ TemporaryName jobs ((jobs i).file .metadata) :=
      file_not_temporary (show ¬ False from id)
    rw [Publisher.program_admitted hadm]
    refine Always.bind (fun op k => Tidy.bind) (atomic_publish_tidy hart) ?_
    intro r
    cases r with
    | ok => exact atomic_publish_tidy hmeta
    | error e => exact trivial
  · rw [Publisher.program_refused hadm]
    exact trivial

/-- A rename that reported no error has moved its file. -/
theorem disk_step_rename {src dst : String} {r : Except String Unit}
    (h : disk_step w (.fs (.rename src dst)) r w') :
    r = .ok () ∧ ∃ bytes, w.dir src = some bytes ∧
      w' = { w with dir := w.dir.renamed src dst bytes } := by
  rcases plain_rename h.1 with hmoved | ⟨rfl, -⟩
  · exact hmoved
  · exact nomatch (show (Except.error NOT_FOUND : Except String Unit) = .ok () from h.2)

/-- What one operation of a tidy thread does to a temporary: nothing, or it is gone, or
the thread will rename it. -/
theorem disk_step_temporary {r : op.Answer} {name : String} (htidy : Tidy jobs op k)
    (hname : TemporaryName jobs name) (hstep : disk_step w op r w') :
    w'.dir name = w.dir name ∨ w'.dir name = none ∨ (k r).Will DiskOp.ok (Renames name) := by
  cases op with
  | fetch_add pid => exact .inl (congrFun (plain_fetch_add hstep.1) name)
  | fs op =>
    cases op with
    | exists_ path | is_file path =>
      rw [← (Prod.mk.inj hstep.1).2]
      exact .inl rfl
    | read path =>
      rw [← (Prod.mk.inj hstep.1).2]
      dsimp only
      rw [FsOp.run]
      cases w.dir path <;> exact .inl rfl
    | set_permissions path =>
      rw [plain_set_permissions hstep.1]
      exact .inl rfl
    | write path bytes =>
      obtain ⟨rfl, rfl⟩ := plain_write hstep.1
      by_cases hpath : name = path
      · subst hpath
        exact .inr (.inr htidy)
      · exact .inl (update_of_ne hpath _ _)
    | rename src dst =>
      obtain ⟨rfl, bytes, -, rfl⟩ := disk_step_rename hstep
      -- A tidy program renames onto no temporary name.
      have hdst : name ≠ dst := by
        rintro rfl
        exact htidy hname
      by_cases hsrc : name = src
      · subst hsrc
        exact .inr (.inl (Dir.renamed_src _ _ hdst))
      · exact .inl (Dir.renamed_of_ne _ _ hsrc hdst)

/-- The rename a thread was to perform is either still to come or has just been. -/
theorem disk_step_will {r : op.Answer} {name : String} (htidy : Tidy jobs op k)
    (hname : TemporaryName jobs name) (hstep : disk_step w op r w')
    (hwill : (Prog.vis op k).Will DiskOp.ok (Renames name)) :
    w'.dir name = none ∨ (k r).Will DiskOp.ok (Renames name) := by
  rcases hwill with ⟨dst, rfl⟩ | hlater
  · obtain ⟨-, bytes, -, rfl⟩ := disk_step_rename hstep
    have hdst : name ≠ dst := by
      rintro rfl
      exact htidy hname
    exact .inl (Dir.renamed_src _ _ hdst)
  · exact .inr (hlater r hstep.2)

end Tidy

/-! ## The whole run

Both arguments at the end of a run: which files there are, and that `load` accepts them. -/

section Run

variable {ι : Type} [DecidableEq ι] {E : CacheEnv} {reader : DiskCache} {jobs : ι → Publisher}

/-- The publishers before their first step. -/
def publishers (E : CacheEnv) (jobs : ι → Publisher) (w : World) :
    Pool ι World DiskOp DiskOp.Answer (Except Error Unit) := ⟨w, fun i => (jobs i).program E⟩

/-- A run of the publishers in which no operation reports an error. -/
def PublishRun (E : CacheEnv) (jobs : ι → Publisher) (w : World)
    (P : Pool ι World DiskOp DiskOp.Answer (Except Error Unit)) : Prop :=
  Pool.Run disk_step (fun _ _ => False) (publishers E jobs w) P

variable {w : World} {P : Pool ι World DiskOp DiskOp.Answer (Except Error Unit)}

theorem PublishRun.plain (hrun : PublishRun E jobs w P) :
    Pool.Run (publisherLogic E jobs).step (fun _ _ => False) (publishers E jobs w) P :=
  Pool.Run.mono hrun fun _ _ _ _ h => h.1

/-- A temporary that was not there before stands only while a thread is to rename it. -/
theorem PublishRun.temporary (hrun : PublishRun E jobs w P) :
    ∀ name, TemporaryName jobs name → P.state.dir name = w.dir name ∨ P.state.dir name = none ∨
      ∃ i, (P.threads i).Will DiskOp.ok (Renames name) := by
  induction hrun with
  | refl => exact fun name _ => .inl rfl
  | @tail P P' hrun' hstep ih =>
    have htidy := Pool.always (A := fun _ => Tidy jobs) (fun _ _ _ _ h => h.2)
      Publisher.program_tidy hrun'
    cases hstep with
    | env s hs => exact hs.elim
    | thread i op k r s hi hs =>
      have hthis := htidy i
      rw [hi] at hthis
      intro name hname
      -- The thread that moved, and what it is still to do.
      have hmoved : (k r).Will DiskOp.ok (Renames name) →
          ∃ j, (update P.threads i (k r) j).Will DiskOp.ok (Renames name) :=
        fun hwill => ⟨i, by rwa [update_self]⟩
      rcases disk_step_temporary hthis.1 hname hs with hsame | hnone | hwill
      · rcases ih name hname with hinit | hnone | ⟨j, hwill⟩
        · exact .inl (hsame.trans hinit)
        · exact .inr (.inl (hsame.trans hnone))
        · by_cases hj : j = i
          · subst hj
            rw [hi] at hwill
            exact .inr ((disk_step_will hthis.1 hname hs hwill).imp_right hmoved)
          · refine .inr (.inr ⟨j, ?_⟩)
            dsimp only
            rwa [update_of_ne hj]
      · exact .inr (.inl hnone)
      · exact .inr (.inr (hmoved hwill))

/-- When everyone has returned, only the files of published entries have changed; a
temporary that an earlier process left behind may have been used up. -/
theorem Agree.run_frame (hagree : Agree E reader jobs) (hrun : PublishRun E jobs w P)
    (hdone : ∀ i, ∃ r, P.threads i = .ret r) (name : String) :
    P.state.dir name = w.dir name ∨
      (∃ i kind, (jobs i).Admitted ∧ ¬ kind.Temporary ∧ name = (jobs i).file kind) ∨
      (TemporaryName jobs name ∧ P.state.dir name = none) := by
  have hrely : DiskRely E jobs w P.state := Pool.run_rely (L := publisherLogic E jobs)
    (fun _ _ _ _ h => h) (fun _ _ h => h.elim) (fun i => hagree.program_safe i)
    hrun.plain
  rcases hrely name with hsame | ⟨bytes, ⟨i, kind, hadm, hname, -⟩, -⟩ | htemp
  · exact .inl hsame
  · by_cases hkind : kind.Temporary
    · have htemp : TemporaryName jobs name := ⟨i, kind, hadm, hname, hkind⟩
      rcases hrun.temporary name htemp with hsame | hnone | ⟨j, hwill⟩
      · exact .inl hsame
      · exact .inr (.inr ⟨htemp, hnone⟩)
      · obtain ⟨r, hr⟩ := hdone j
        rw [hr] at hwill
        exact hwill.elim
    · exact .inr (.inl ⟨i, kind, hadm, hkind, hname⟩)
  · exact .inr (.inr htemp)

/-- What the publishers have achieved together. -/
theorem Agree.run_done (hagree : Agree E reader jobs) (hrun : PublishRun E jobs w P) {i : ι}
    {r : Except Error Unit} (hi : P.threads i = .ret r) : (jobs i).Done E r P.state := by
  have hsafe := Pool.safe (L := publisherLogic E jobs) (fun _ _ _ _ h => h)
    (fun _ _ h => h.elim) (fun i => hagree.program_safe i) hrun.plain i
  rw [hi] at hsafe
  exact hsafe _ ((publisherLogic E jobs).rely_refl _)

/-- The publishers that return `Ok` are those whose artifact their own limit admits. -/
theorem Agree.published_iff (hagree : Agree E reader jobs) (hrun : PublishRun E jobs w P)
    (hdone : ∀ i, ∃ r, P.threads i = .ret r) (i : ι) :
    P.threads i = .ret (.ok ()) ↔ (jobs i).Admitted := by
  constructor
  · intro hi
    exact (hagree.run_done hrun hi rfl).1
  · intro hadm
    obtain ⟨r, hr⟩ := hdone i
    have hmeets := (Pool.meets (C := okContract) (I := fun _ => True)
      (fun _ _ _ _ _ _ h => ⟨trivial, h.2⟩) (fun _ _ _ h => h.elim) trivial
      (fun i => (jobs i).program_ok_meets) hrun).2 i
    rw [hr] at hmeets
    rw [hr, hmeets hadm]

/-- Concurrent publishers, whatever the interleaving, when all have returned and no
operation has failed: each published entry loads as its artifact, every other entry as it
did before (in a directory that was empty, as a miss), and the files that have come into
being are the two files of the published entries; no temporary has. -/
theorem publishers_leave_loadable_store (E : CacheEnv) (reader : DiskCache)
    (jobs : ι → Publisher) (hagree : Agree E reader jobs) (w : World)
    (P : Pool ι World DiskOp DiskOp.Answer (Except Error Unit)) (hrun : PublishRun E jobs w P)
    (hdone : ∀ i, ∃ r, P.threads i = .ret r) :
    (∀ i, P.threads i = .ret (.ok ()) →
      (reader.load_now E (jobs i).digest (jobs i).profile P.state).1
        = .ok (some (jobs i).artifact)) ∧
    (∀ i, (jobs i).artifact.length ≤ (jobs i).cache.config.max_entry_bytes →
      P.threads i = .ret (.ok ())) ∧
    (∀ (loader : DiskCache) (d : Digest) (p : WasiProfile),
      (∀ i, P.threads i = .ret (.ok ()) → ¬ ((jobs i).digest = d ∧ (jobs i).profile = p)) →
      (loader.load_now E d p P.state).1 = (loader.load_now E d p w).1 ∧
      (w.dir = (fun _ => none) → (loader.load_now E d p P.state).1 = .ok none)) ∧
    (∀ name, P.state.dir name ≠ none → P.state.dir name = w.dir name ∨
      ∃ i, P.threads i = .ret (.ok ()) ∧
        (name = file_name (jobs i).digest (jobs i).profile .artifact ∨
          name = file_name (jobs i).digest (jobs i).profile .metadata)) ∧
    (∀ d p kind, kind.Temporary → w.dir (file_name d p kind) = none →
      P.state.dir (file_name d p kind) = none) := by
  have hpub := hagree.published_iff hrun hdone
  refine ⟨?_, ?_, ?_, ?_, ?_⟩
  · intro i hi
    obtain ⟨-, ha, hm⟩ := hagree.run_done hrun hi rfl
    rw [Publisher.contents, DiskCache.file_contents, hagree.metadata_of] at hm
    exact congrArg Prod.fst
      (DiskCache.load_published ha hm (hagree.decodes i) (hagree.fits i))
  · exact fun i hsize => (hpub i).mpr hsize
  · intro loader d p hother
    have hframe : ∀ kind, kind = .artifact ∨ kind = .metadata →
        P.state.dir (file_name d p kind) = w.dir (file_name d p kind) := by
      intro kind hkind
      rcases hagree.run_frame hrun hdone (file_name d p kind) with
        hsame | ⟨i, kind', hadm, -, hname⟩ | ⟨⟨i, kind', -, hname, htemp⟩, -⟩
      · exact hsame
      · -- A file of a published entry: then the entry is that one.
        obtain ⟨hd, hp, -⟩ := file_name_inj hname
        exact absurd ⟨hd.symm, hp.symm⟩ (hother i ((hpub i).mpr hadm))
      · obtain ⟨-, -, rfl⟩ := file_name_inj hname
        rcases hkind with rfl | rfl <;> exact htemp.elim
    refine ⟨DiskCache.load_now_congr hframe, ?_⟩
    intro hempty
    refine congrArg Prod.fst (DiskCache.load_absent ?_ ?_)
    · rw [hframe _ (.inl rfl), hempty]
    · rw [hframe _ (.inr rfl), hempty]
  · intro name hsome
    rcases hagree.run_frame hrun hdone name with
      hsame | ⟨i, kind, hadm, hkind, rfl⟩ | ⟨-, hnone⟩
    · exact .inl hsame
    · refine .inr ⟨i, (hpub i).mpr hadm, ?_⟩
      cases kind with
      | artifact => exact .inl rfl
      | metadata => exact .inr rfl
      | artifactTemp | metadataTemp => exact absurd trivial hkind
    · exact absurd hnone hsome
  · intro d p kind hkind hnone
    rcases hagree.run_frame hrun hdone (file_name d p kind) with
      hsame | ⟨i, kind', -, hkind', hname⟩ | ⟨-, hgone⟩
    · exact hsame.trans hnone
    · obtain ⟨-, -, rfl⟩ := file_name_inj hname
      exact absurd hkind hkind'
    · exact hgone

end Run

/-! ## Processes of their own

`PublishRun` is about runs in which no operation fails. If the publishers are processes of their
own, then on a disk that works all runs are such: the name of a temporary holds the PID of the
process that made it, and nobody else moves it away between its write and its rename. -/

section Apart

variable {ι : Type} [DecidableEq ι] {E : CacheEnv} {jobs : ι → Publisher} {pid pid' : UInt32}
  {name path : String} {w : World}

/-- A temporary of the process. -/
def OwnTemporary (pid : UInt32) (name : String) : Prop :=
  ∃ (d : Digest) (p : WasiProfile) (sequence : UInt64),
    name = file_name d p (.artifactTemp (Nat.repr pid.toNat ++ "-" ++ Nat.repr sequence.toNat)) ∨
    name = file_name d p (.metadataTemp (Nat.repr pid.toNat ++ "-" ++ Nat.repr sequence.toNat))

/-- The number before the dash is the PID. -/
theorem tag_pid {n n' : ℕ} {rest rest' : String}
    (h : Nat.repr n ++ "-" ++ rest = Nat.repr n' ++ "-" ++ rest') : n = n' := by
  have hdash : ∀ n, '-' ∉ Nat.toDigits 10 n := fun n hmem =>
    absurd (Nat.isDigit_of_mem_toDigits (by decide) (by decide) hmem) (by decide)
  have hlist := congrArg String.toList h
  simp only [String.toList_append, List.append_assoc, Nat.repr, String.toList_ofList] at hlist
  have hdigits := (split_at_first (hdash n) (hdash n') hlist).1
  calc
    n = Nat.ofDigitChars 10 (Nat.toDigits 10 n) 0 := Nat.ofDigitChars_ten_toDigits.symm
    _ = Nat.ofDigitChars 10 (Nat.toDigits 10 n') 0 := by rw [hdigits]
    _ = n' := Nat.ofDigitChars_ten_toDigits

/-- A temporary is of one process. -/
theorem OwnTemporary.pid_eq (h : OwnTemporary pid name) (h' : OwnTemporary pid' name) :
    pid = pid' := by
  obtain ⟨d, p, sequence, rfl | rfl⟩ := h <;> obtain ⟨d', p', sequence', h' | h'⟩ := h' <;>
    obtain ⟨-, -, hkind⟩ := file_name_inj h' <;>
    first
      | exact UInt32.toNat_inj.mp (tag_pid (FileKind.artifactTemp.inj hkind))
      | exact UInt32.toNat_inj.mp (tag_pid (FileKind.metadataTemp.inj hkind))
      | exact absurd hkind nofun

/-- The files of an entry are nobody's temporaries. -/
theorem OwnTemporary.not_final {job : Publisher} (h : OwnTemporary pid name) :
    name ≠ job.file .artifact ∧ name ≠ job.file .metadata := by
  obtain ⟨d, p, sequence, rfl | rfl⟩ := h <;>
    exact ⟨fun h => absurd (file_name_inj h).2.2 nofun, fun h => absurd (file_name_inj h).2.2 nofun⟩

/-- The logic of a process among others: they leave its temporaries alone and it leaves theirs,
and none of its operations fails. -/
def ownLogic (pid : UInt32) : Rg World DiskOp DiskOp.Answer where
  rely w w' := ∀ name, OwnTemporary pid name → w'.dir name = w.dir name
  step := plain_step
  guar w op r w' := op.ok r ∧
    ∀ other, other ≠ pid → ∀ name, OwnTemporary other name → w'.dir name = w.dir name
  rely_refl _ _ _ := rfl
  rely_trans _ _ _ h h' name hname := (h' name hname).trans (h name hname)

/-- `atomic_publish` under names of its own: what it has written is there to be renamed. -/
theorem atomic_publish_own {bytes : Bytes}
    (htemp : ∀ sequence : UInt64, OwnTemporary pid (with_extension path
      ("tmp-" ++ (Nat.repr pid.toNat ++ "-" ++ Nat.repr sequence.toNat))))
    (hpath : ∀ other name, OwnTemporary other name → name ≠ path) :
    (ownLogic pid).Safe (fun _ _ => True) (atomic_publish pid path bytes) w := by
  intro w₁ _ sequence w₂ hstep
  refine ⟨⟨trivial, fun _ _ name _ => congrFun (plain_fetch_add hstep) name⟩, ?_⟩
  have hown := htemp sequence
  have hothers : ∀ other, other ≠ pid → ∀ name, OwnTemporary other name → name ≠ _ :=
    fun other hne name hname heq => hne (hname.pid_eq (heq ▸ hown))
  intro w₃ _ r w₄ hstep
  obtain ⟨rfl, rfl⟩ := plain_write hstep
  refine ⟨⟨rfl, fun other hne name hname =>
    update_of_ne (hothers other hne name hname) _ _⟩, ?_⟩
  intro w₅ hrely r w₆ hstep
  have hheld : w₅.dir _ = some bytes := (hrely _ hown).trans (update_self _ _ _)
  obtain rfl := plain_set_permissions hstep
  obtain rfl : .ok () = r := by
    have hr := (Prod.mk.inj hstep).1
    rwa [FsOp.run, hheld] at hr
  refine ⟨⟨rfl, fun _ _ _ _ => rfl⟩, ?_⟩
  intro w₇ hrely' r w₈ hstep
  have hheld' := (hrely' _ hown).trans hheld
  rcases plain_rename hstep with ⟨rfl, found, -, rfl⟩ | ⟨rfl, rfl⟩
  · refine ⟨⟨rfl, fun other hne name hname => ?_⟩, fun _ _ => trivial⟩
    exact Dir.renamed_of_ne _ _ (hothers other hne name hname) (hpath other name hname)
  · have hr := (Prod.mk.inj hstep).1
    rw [FsOp.run, hheld'] at hr
    cases hr

/-- A publisher in a process of its own. -/
theorem Publisher.program_own (job : Publisher) :
    (ownLogic job.pid).Safe (fun _ _ => True) (job.program E) w := by
  by_cases hadm : job.Admitted
  · rw [Publisher.program_admitted hadm]
    refine .bindF (atomic_publish_own ?_ fun _ _ h => h.not_final.1) ?_
      fun _ _ _ _ _ => trivial
    · intro sequence
      rw [Publisher.artifact_temporary]
      exact ⟨_, _, sequence, .inl rfl⟩
    · intro _ w _
      refine atomic_publish_own ?_ fun _ _ h => h.not_final.2
      intro sequence
      rw [Publisher.metadata_temporary]
      exact ⟨_, _, sequence, .inr rfl⟩
  · rw [Publisher.program_refused hadm]
    exact fun _ _ => trivial

/-- On a disk that works, no operation of publishers with PIDs of their own fails. -/
theorem publishRun_of_plain (hpid : Injective fun i => (jobs i).pid)
    {P : Pool ι World DiskOp DiskOp.Answer (Except Error Unit)}
    (hrun : Pool.Run plain_step (fun _ _ => False) (publishers E jobs w) P) :
    PublishRun E jobs w P := by
  refine Pool.Run.mono (Pool.run_guar (L := fun i => ownLogic (jobs i).pid) (fun _ _ _ _ _ h => h)
    ?_ (fun _ _ _ h => h.elim) (fun i => (jobs i).program_own) hrun) ?_
  · exact fun i j hij s e r s' h => h.2 _ fun h => hij (hpid h)
  · rintro s e r s' ⟨hs, i, hok, -⟩
    exact ⟨hs, hok⟩

end Apart

/-- The disk answers every operation. -/
def DiskOp.answer (w : World) (op : DiskOp) : Option (op.Answer × World) := some (op.run w)

/-- What is computed is a step. -/
theorem plain_step_of_answer (w : World) (op : DiskOp) (r : op.Answer) (w' : World)
    (h : DiskOp.answer w op = some (r, w')) : plain_step w op r w' := Option.some.inj h

/-- Two processes that publish one entry. -/
def twoPublishers (second : Bool) : Publisher where
  cache := sampleCache
  pid := if second then 2 else 1
  digest := sampleDigest
  profile := .Cli0_2
  artifact := sampleAot

theorem twoPublishers_agree : Agree sampleCacheEnv sampleCache twoPublishers where
  key _ := rfl
  target _ := rfl
  artifact _ _ _ _ := rfl
  fits _ := show sampleAot.length ≤ sampleCache.config.max_entry_bytes by decide
  decodes i := by
    show sampleCacheEnv.from_slice (Json.render
      (sampleCache.metadata_of sampleCacheEnv sampleDigest .Cli0_2 sampleAot).to_json)
        = .ok (sampleCache.metadata_of sampleCacheEnv sampleDigest .Cli0_2 sampleAot)
    rw [sampleCache_metadata_of]
    exact sampleCacheEnv_decodes

/-- The two of them, in an empty directory. -/
theorem publishers_leave_loadable_store_two :
    ∃ P, PublishRun sampleCacheEnv twoPublishers emptyWorld P ∧
      (∀ i, P.threads i = .ret (.ok ())) ∧
      (sampleCache.load_now sampleCacheEnv sampleDigest .Cli0_2 P.state).1
        = .ok (some sampleAot) ∧
      (sampleCache.load_now sampleCacheEnv sampleDigest .Cli0_3 P.state).1 = .ok none ∧
      P.state.dir (file_name sampleDigest .Cli0_2 (.artifactTemp "1-0")) = none := by
  -- They take turns, an operation each.
  have hend : ((publishers sampleCacheEnv twoPublishers emptyWorld).follow
      DiskOp.answer (List.replicate 8 [false, true]).flatten).map (fun P =>
        (P.result false, P.result true)) = some (some (.ok ()), some (.ok ())) := by
    decide +kernel
  obtain ⟨P, hP, hresult⟩ := Option.map_eq_some_iff.mp hend
  have hrun : PublishRun sampleCacheEnv twoPublishers emptyWorld P :=
    publishRun_of_plain (by simp only [Injective]; decide)
      (Pool.follow_run plain_step_of_answer hP)
  have hok : ∀ i, P.threads i = .ret (.ok ())
    | false => Pool.threads_of_result (congrArg Prod.fst hresult)
    | true => Pool.threads_of_result (congrArg Prod.snd hresult)
  refine ⟨P, hrun, ?_⟩
  obtain ⟨hload, -, hother, -, htemp⟩ := publishers_leave_loadable_store sampleCacheEnv sampleCache
    twoPublishers twoPublishers_agree emptyWorld _ hrun fun i => ⟨_, hok i⟩
  refine ⟨hok, hload false (hok false), (hother sampleCache sampleDigest .Cli0_3 ?_).2 rfl,
    htemp sampleDigest .Cli0_2 (.artifactTemp "1-0") trivial rfl⟩
  rintro i - ⟨-, hprofile⟩
  cases hprofile

end WasmRuntime.Cache
