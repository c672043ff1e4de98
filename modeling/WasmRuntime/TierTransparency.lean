/-
Whichever tier serves a component, it is the component the compiler would have built.

The run may be any interleaving of any number of calls in any number of runtimes, with file
operations that fail, files that vanish, mutexes that are poisoned, and calls that are dropped half
way.
-/
import WasmRuntime.Prepare

set_option autoImplicit false

namespace WasmRuntime.Cache

open ByteCodec Prog Function

/-! ## Where things come from

Everything a runtime keeps of a component, in memory or on disk, comes from a compilation of a
source whose digest is the key it is kept under. -/

/-- A disk cache that is shared, the engine, and the sources that are prepared with them. -/
structure Provenance (κ : Type) where
  E : CacheEnv
  engine : Engine κ
  disk : DiskCache
  sources : Set Bytes

namespace Provenance

variable {κ : Type} (S : Provenance κ)

/-- What compiling the source with this digest gives. -/
def Origin (d : Digest) (prepared : PreparedComponent κ) (bytes : Bytes) : Prop :=
  ∃ source ∈ S.sources, component_digest S.E.crypto source = d ∧
    S.engine.compile source = .ok (prepared, bytes)

/-- An initial part of what `publish` writes for a compiled source. -/
def Genuine (d : Digest) (p : WasiProfile) (kind : FileKind) (found : Bytes) : Prop :=
  ∃ prepared bytes, S.Origin d prepared bytes ∧ prepared.profile = p ∧
    found <+: S.disk.file_contents S.E d p bytes kind

/-- A warm entry that was compiled from the source of its key. -/
def WarmOk (key : String) (prepared : PreparedComponent κ) : Prop :=
  ∃ d : Digest, d.text = key ∧ ∃ bytes, S.Origin d prepared bytes

/-- A warmish entry that was compiled from the source of its key. -/
def WarmishOk (key : String) (aot : PreparedAot) : Prop :=
  ∃ d : Digest, d.text = key ∧
    ∃ prepared, S.Origin d prepared aot.bytes ∧ aot.profile = prepared.profile

/-- What is assumed of the parts that are not modelled: the digests of the sources differ,
deserialization undoes serialization, and what the decoder reads from an initial part of a
record is that record. -/
structure Sound : Prop where
  no_collision : Set.InjOn (component_digest S.E.crypto) S.sources
  deserialize_serialize : ∀ component bytes, S.engine.serialize component = .ok bytes →
    S.engine.deserialize bytes = .ok component
  decodes : ∀ d prepared bytes, S.Origin d prepared bytes →
    ∀ found, found <+: Json.render (S.disk.metadata_of S.E d prepared.profile bytes).to_json →
    ∀ metadata, S.E.from_slice found = .ok metadata →
      metadata = S.disk.metadata_of S.E d prepared.profile bytes

/-- A cache under the shared key and identity; its limit is its own. -/
def Shares (cache : DiskCache) : Prop :=
  cache.config.authentication_key = S.disk.config.authentication_key ∧
    cache.target = S.disk.target

variable {S}

/-- A digest has one origin. -/
theorem Sound.origin_unique (hS : S.Sound) {d : Digest} {prepared prepared' : PreparedComponent κ}
    {bytes bytes' : Bytes} (h : S.Origin d prepared bytes) (h' : S.Origin d prepared' bytes') :
    prepared = prepared' ∧ bytes = bytes' := by
  obtain ⟨source, hmem, hd, hcompile⟩ := h
  obtain ⟨source', hmem', hd', hcompile'⟩ := h'
  have hsource : source = source' := hS.no_collision hmem hmem' (hd.trans hd'.symm)
  rw [hsource, hcompile'] at hcompile
  have hpair := Except.ok.inj hcompile
  exact ⟨(Prod.mk.inj hpair).1.symm, (Prod.mk.inj hpair).2.symm⟩

/-- A compilation found under the digest of a source is a compilation of that source. -/
theorem Sound.compile_of_origin (hS : S.Sound) {source bytes : Bytes}
    {prepared : PreparedComponent κ} (hmem : source ∈ S.sources)
    (h : S.Origin (component_digest S.E.crypto source) prepared bytes) :
    S.engine.compile source = .ok (prepared, bytes) := by
  obtain ⟨source', hmem', hd, hcompile⟩ := h
  rwa [hS.no_collision hmem' hmem hd] at hcompile

end Provenance

variable {ε α κ : Type} {engine : Engine κ} {prepared : PreparedComponent κ}

theorem except_bind_eq_ok {β : Type} {x : Except ε α} {f : α → Except ε β} {b : β}
    (h : x >>= f = .ok b) : ∃ a, x = .ok a ∧ f a = .ok b := by
  cases x with
  | error e => cases h
  | ok a => exact ⟨a, rfl, h⟩

theorem except_ok_bind {β : Type} (a : α) (f : α → Except ε β) :
    ((Except.ok a : Except ε α) >>= f) = f a := rfl

theorem mapError_ok {δ : Type} (wrap : ε → δ) (a : α) :
    (Except.ok a : Except ε α).mapError wrap = .ok a := rfl

theorem mapError_eq_ok {δ : Type} {wrap : ε → δ} {x : Except ε α} {a : α}
    (h : x.mapError wrap = .ok a) : x = .ok a := by
  cases x with
  | error e => cases h
  | ok a' => exact congrArg Except.ok (Except.ok.inj h)

/-- The three steps of a successful compilation. -/
theorem Engine.compile_eq_ok {source bytes : Bytes}
    (h : engine.compile source = .ok (prepared, bytes)) :
    engine.from_binary source = .ok prepared.component ∧
      engine.detect_profile prepared.component = .ok prepared.profile ∧
      engine.serialize prepared.component = .ok bytes := by
  obtain ⟨component, hfrom, h⟩ := except_bind_eq_ok h
  obtain ⟨profile, hdetect, h⟩ := except_bind_eq_ok h
  obtain ⟨out, hser, h⟩ := except_bind_eq_ok h
  cases h
  exact ⟨mapError_eq_ok hfrom, hdetect, mapError_eq_ok hser⟩

/-- Compiling, step by step. -/
theorem Engine.compile_ok {source bytes : Bytes} {component : κ} {profile : WasiProfile}
    (hfrom : engine.from_binary source = .ok component)
    (hdetect : engine.detect_profile component = .ok profile)
    (hser : engine.serialize component = .ok bytes) :
    engine.compile source = .ok (⟨component, profile⟩, bytes) := by
  unfold Engine.compile
  rw [hfrom, mapError_ok, except_ok_bind, hdetect, except_ok_bind, hser, mapError_ok,
    except_ok_bind]
  rfl

theorem Engine.deserialize_component_ok {aot : PreparedAot}
    (hde : engine.deserialize aot.bytes = .ok prepared.component)
    (hdetect : engine.detect_profile prepared.component = .ok prepared.profile)
    (hprofile : aot.profile = prepared.profile) :
    engine.deserialize_component aot = .ok prepared := by
  unfold Engine.deserialize_component
  rw [hde, mapError_ok, except_ok_bind, hdetect, except_ok_bind, hprofile, bne_self_eq_false]
  rfl

/-- What was serialized from a compiled component deserializes to it. -/
theorem Provenance.Sound.deserialize_component {S : Provenance κ} (hS : S.Sound) {d : Digest}
    {aot : PreparedAot} (h : S.Origin d prepared aot.bytes)
    (hprofile : aot.profile = prepared.profile) :
    S.engine.deserialize_component aot = .ok prepared := by
  obtain ⟨source, -, -, hcompile⟩ := h
  obtain ⟨-, hdetect, hser⟩ := Engine.compile_eq_ok hcompile
  exact Engine.deserialize_component_ok (hS.deserialize_serialize _ _ hser) hdetect hprofile

/-! ## The contract

That is the only thing a thread needs to know of the shared state: it is enough to say what each
effect must be like to keep it and what it says about the answer (`Provenance.contract`). -/

namespace Provenance

variable {κ : Type} (S : Provenance κ)

/-- The contract of the file operations: only genuine bytes are written, a rename keeps
them genuine, and only genuine bytes are read. -/
def diskContract : Contract DiskOp DiskOp.Answer where
  pre
    | .fs (.write name bytes) => ∃ d p kind, name = file_name d p kind ∧ S.Genuine d p kind bytes
    | .fs (.rename src dst) => ∃ d p kind kind', src = file_name d p kind ∧
        dst = file_name d p kind' ∧ ∀ found, S.Genuine d p kind found → S.Genuine d p kind' found
    | _ => True
  post
    | .fs (.read name), answer => ∀ found, answer = .ok found →
        ∀ d p kind, name = file_name d p kind → S.Genuine d p kind found
    | _, _ => True

/-- The contract of a runtime: what goes into memory has its origin, and so has what comes
out of it. -/
def contract : Contract (RtOp κ) RtOp.Answer where
  pre
    | .disk _ op => S.diskContract.pre op
    | .memory _ op => op.Puts S.WarmOk S.WarmishOk
    | _ => True
  post
    | .disk _ op, answer => S.diskContract.post op answer
    | .memory _ op, answer => ∀ found, answer = .ok found → op.Gives S.WarmOk S.WarmishOk found
    | _, _ => True

/-- The files of the directory are genuine. -/
def DirOk (dir : Dir) : Prop :=
  ∀ d p kind found, dir (file_name d p kind) = some found → S.Genuine d p kind found

/-- The invariant of the whole: every file and every entry in memory has its origin. -/
structure Inv (s : System κ) : Prop where
  dir : S.DirOk s.world.dir
  memory : ∀ rid, (s.memory rid).All S.WarmOk S.WarmishOk

variable {S}

/-- A part of such a file is one, too. -/
theorem Genuine.take {d : Digest} {p : WasiProfile} {kind : FileKind} {found : Bytes}
    (h : S.Genuine d p kind found) (n : ℕ) : S.Genuine d p kind (found.take n) := by
  obtain ⟨prepared, bytes, horigin, hp, hfound⟩ := h
  exact ⟨prepared, bytes, horigin, hp, (List.take_prefix n found).trans hfound⟩

/-- A file operation within the contract, failed or not, leaves genuine files. -/
theorem DirOk.effect {dir dir' : Dir} (h : S.DirOk dir) {op : FsOp}
    (hpre : S.diskContract.pre (.fs op)) (heffect : op.Effect dir dir') : S.DirOk dir' := by
  cases heffect with
  | same => exact h
  | wrote path bytes n =>
    -- Of a write that failed the first `n` bytes may be there.
    obtain ⟨d, p, kind, rfl, hgenuine⟩ := hpre
    intro d' p' kind' found hfound
    by_cases hname : file_name d' p' kind' = file_name d p kind
    · obtain ⟨rfl, rfl, rfl⟩ := file_name_inj hname
      rw [update_self] at hfound
      cases hfound
      exact hgenuine.take n
    · rw [update_of_ne hname] at hfound
      exact h _ _ _ _ hfound
  | renamed src dst bytes hsrc =>
    obtain ⟨d, p, kind, kind₁, rfl, rfl, hmoves⟩ := hpre
    intro d' p' kind' found hfound
    by_cases hdst : file_name d' p' kind' = file_name d p kind₁
    · obtain ⟨rfl, rfl, rfl⟩ := file_name_inj hdst
      rw [Dir.renamed_dst] at hfound
      cases hfound
      exact hmoves _ (h _ _ _ _ hsrc)
    by_cases hgone : file_name d' p' kind' = file_name d p kind
    · rw [hgone] at hfound hdst
      rw [Dir.renamed_src _ _ hdst] at hfound
      cases hfound
    · rw [Dir.renamed_of_ne _ _ hgone hdst] at hfound
      exact h _ _ _ _ hfound

/-- What is read is what the file holds. -/
theorem DirOk.read_run {dir : Dir} (h : S.DirOk dir) (op : FsOp) :
    S.diskContract.post (.fs op) (op.run dir).1 := by
  cases op with
  | read path =>
    intro found hfound d p kind hpath
    subst hpath
    rw [FsOp.run] at hfound
    cases hfile : dir (file_name d p kind) with
    | none =>
      rw [hfile] at hfound
      cases hfound
    | some bytes =>
      rw [hfile] at hfound
      cases hfound
      exact h _ _ _ _ hfile
  | exists_ | is_file | write | set_permissions | rename => exact trivial

theorem post_of_fault {dir dir' : Dir} {op : FsOp} {answer : op.Answer}
    (h : op.Fault dir answer dir') : S.diskContract.post (.fs op) answer := by
  cases h with
  | read path message => exact fun found hfound => nomatch hfound
  | exists_ | is_file | open_ | write | set_permissions | rename => exact trivial

/-- One step of the system, failed or not, keeps the invariant, and its answer is as the
contract says. -/
theorem Inv.step {usize_max : ℕ} {s s' : System κ} {op : RtOp κ} {answer : op.Answer}
    (h : S.Inv s) (hpre : S.contract.pre op) (hstep : rt_fault_step usize_max s op answer s') :
    S.Inv s' ∧ S.contract.post op answer := by
  rcases hstep with ⟨-, hrun⟩ | hfault
  · cases op with
    | disk rid op =>
      cases op with
      | fs op =>
        obtain ⟨rfl, rfl⟩ := Prod.mk.inj hrun
        exact ⟨⟨h.dir.effect hpre (op.run_effect _), h.memory⟩, h.dir.read_run op⟩
      | fetch_add pid =>
        obtain ⟨-, rfl⟩ := Prod.mk.inj hrun
        exact ⟨⟨h.dir, h.memory⟩, trivial⟩
    | memory rid op =>
      obtain ⟨rfl, rfl⟩ := Prod.mk.inj hrun
      -- One runtime's memory changes, and the others' stay.
      obtain ⟨hall, hgives⟩ := op.run_all usize_max (h.memory rid) hpre
      refine ⟨⟨h.dir, ?_⟩, fun found hfound => Except.ok.inj hfound ▸ hgives⟩
      intro rid'
      by_cases hrid : rid' = rid
      · subst hrid
        simpa using hall
      · simpa [update_of_ne hrid] using h.memory rid'
    | preparation_locks rid d | lock rid id | unlock rid id | spawn_blocking rid
    | publish_failure rid =>
      obtain ⟨-, rfl⟩ := Prod.mk.inj hrun
      exact ⟨⟨h.dir, h.memory⟩, trivial⟩
  · cases hfault with
    | disk rid op answer dir hop =>
      exact ⟨⟨h.dir.effect hpre hop.effect, h.memory⟩, post_of_fault hop⟩
    | memory rid op => exact ⟨h, nofun⟩
    | preparation_locks | spawn_blocking => exact ⟨h, trivial⟩

/-- Files may vanish, and calls may be dropped. -/
theorem Inv.accident {s s' : System κ} (h : S.Inv s) (hacc : Accident s s') : S.Inv s' := by
  cases hacc with
  | dropped rid id => exact ⟨h.dir, h.memory⟩
  | deleted name =>
    refine ⟨?_, h.memory⟩
    intro d p kind found hfound
    dsimp only at hfound
    by_cases hname : file_name d p kind = name
    · rw [hname, update_self] at hfound
      cases hfound
    · rw [update_of_ne hname] at hfound
      exact h.dir _ _ _ _ hfound

/-! ## The programs keep it

A file of an entry is only known to hold an initial part of what `publish` meant to write, since a
write may stop half way. The reader catches up on this by itself: an initial part of a record is not
a record, and an artifact of the recorded length is all of it. -/

/-- The shape of a postcondition that says nothing of an error. -/
def OnOk {α : Type} (Q : α → Prop) (r : Except Error α) : Prop := ∀ a, r = .ok a → Q a

/-- What is read is what such a file may hold. -/
theorem read_meets {wrap : String → Error} {d : Digest} {p : WasiProfile} {kind : FileKind} :
    S.diskContract.Meets (OnOk (S.Genuine d p kind)) (read wrap (file_name d p kind)) := by
  refine ⟨trivial, ?_⟩
  intro answer hanswer
  cases answer with
  | error message => exact fun found hfound => nomatch hfound
  | ok bytes =>
    intro found hfound
    cases hfound
    exact hanswer bytes rfl d p kind rfl

theorem ofExcept_meets {α : Type} {Q : α → Prop} {x : Except Error α}
    (h : ∀ a, x = .ok a → Q a) :
    S.diskContract.Meets (OnOk Q) (Fallible.ofExcept x : DiskM α) := h

theorem reject_meets {bad : Bool} {e : Error} :
    S.diskContract.Meets (OnOk fun _ => True) (Fallible.reject bad e : DiskM Unit) := by
  cases bad <;> exact fun _ _ => trivial

/-- The last check of `load` is on an artifact of the recorded length. -/
theorem check_length {E : CacheEnv} {cache : DiskCache} {d : Digest} {p : WasiProfile}
    {metadata : CacheMetadata} {artifact : Bytes} {u : Unit}
    (h : cache.check E d p metadata artifact = .ok u) :
    artifact.length = metadata.artifact_len := by
  by_contra hne
  have hbne : (artifact.length != metadata.artifact_len) = true := bne_iff_ne.mpr hne
  rw [DiskCache.check, if_pos hbne] at h
  cases h

/-- What `load` returns is the whole artifact of its entry. -/
theorem load_entry_meets (hS : S.Sound) (cache : DiskCache) (d : Digest) (p : WasiProfile) :
    S.diskContract.Meets (OnOk fun found => ∀ artifact, found = some artifact →
      ∃ prepared, S.Origin d prepared artifact ∧ prepared.profile = p)
      (cache.load_entry S.E d p) := by
  rw [DiskCache.load_entry, paths_eq]
  refine .bindF read_meets ?_
  intro metadata_bytes hrecord
  -- The record is that of one compilation.
  obtain ⟨prepared, bytes, horigin, rfl, hpart⟩ := hrecord
  refine .bindF (ofExcept_meets (Q := fun metadata =>
    metadata = S.disk.metadata_of S.E d prepared.profile bytes) ?_) ?_
  · intro metadata hdecode
    exact hS.decodes d prepared bytes horigin _ hpart _ (mapError_eq_ok hdecode)
  rintro metadata rfl
  refine .bindF reject_meets fun _ _ => ?_
  refine .bindF reject_meets fun _ _ => ?_
  refine .bindF read_meets ?_
  intro artifact hartifact
  -- The artifact is an initial part of that of the same compilation, and long enough.
  obtain ⟨prepared', bytes', horigin', -, hpart'⟩ := hartifact
  obtain ⟨-, rfl⟩ := hS.origin_unique horigin horigin'
  refine .bindF (ofExcept_meets (Q := fun _ => artifact = bytes) ?_) ?_
  · intro _ hcheck
    exact hpart'.eq_of_length (check_length hcheck)
  rintro _ rfl
  rintro found hfound artifact' rfl
  cases hfound
  exact ⟨prepared, horigin, rfl⟩

/-- What `load` returns comes from a compilation. -/
theorem load_meets (hS : S.Sound) (cache : DiskCache) (d : Digest) (p : WasiProfile) :
    S.diskContract.Meets (OnOk fun found => ∀ artifact, found = some artifact →
      ∃ prepared, S.Origin d prepared artifact ∧ prepared.profile = p)
      (cache.load S.E d p) := by
  have hentry := load_entry_meets hS cache d p
  rw [DiskCache.load, paths_eq]
  refine ⟨trivial, ?_⟩
  intro found _
  cases found with
  | true => exact hentry
  | false =>
    refine ⟨trivial, ?_⟩
    intro found' _
    cases found' with
    | true => exact hentry
    | false =>
      rintro a ha artifact rfl
      cases ha

/-- `atomic_publish` of genuine bytes. -/
theorem atomic_publish_meets {pid : UInt32} {d : Digest} {p : WasiProfile}
    {kind : FileKind} (temp : String → FileKind) {bytes : Bytes}
    (htemp : ∀ tag, with_extension (file_name d p kind) ("tmp-" ++ tag) = file_name d p (temp tag))
    (hwrite : ∀ tag, S.Genuine d p (temp tag) bytes)
    (hmove : ∀ tag found, S.Genuine d p (temp tag) found → S.Genuine d p kind found) :
    S.diskContract.Meets (OnOk fun _ => True) (atomic_publish pid (file_name d p kind) bytes) := by
  refine ⟨trivial, ?_⟩
  intro sequence _
  have hname := htemp (Nat.repr pid.toNat ++ "-" ++ Nat.repr sequence.toNat)
  refine ⟨⟨d, p, _, hname, hwrite _⟩, ?_⟩
  intro written _
  cases written with
  | error message => exact fun _ _ => trivial
  | ok =>
    refine ⟨trivial, ?_⟩
    intro permitted _
    cases permitted with
    | error message => exact fun _ _ => trivial
    | ok =>
      refine ⟨⟨d, p, _, kind, hname, rfl, hmove _⟩, ?_⟩
      intro renamed _
      cases renamed <;> exact fun _ _ => trivial

/-- `publish` of a compilation, under the digest of its source. -/
theorem publish_meets {cache : DiskCache} (hcache : S.Shares cache) {pid : UInt32} {d : Digest}
    {prepared : PreparedComponent κ} {bytes : Bytes} (horigin : S.Origin d prepared bytes) :
    S.diskContract.Meets (OnOk fun _ => True)
      (cache.publish S.E pid d prepared.profile bytes) := by
  have hgenuine : ∀ kind, S.Genuine d prepared.profile kind
      (S.disk.file_contents S.E d prepared.profile bytes kind) :=
    fun kind => ⟨prepared, bytes, horigin, rfl, List.prefix_refl _⟩
  have hrecord := DiskCache.metadata_of_congr (E := S.E) hcache.1 hcache.2 d prepared.profile bytes
  rw [DiskCache.publish, paths_eq]
  refine .bindF reject_meets fun _ _ => ?_
  refine .bindF (atomic_publish_meets .artifactTemp
    (artifact_with_extension d prepared.profile) (fun tag => hgenuine (.artifactTemp tag))
    fun tag found h => h) fun _ _ => ?_
  rw [hrecord]
  exact atomic_publish_meets .metadataTemp (metadata_with_extension d prepared.profile)
    (fun tag => hgenuine (.metadataTemp tag)) fun tag found h => h

theorem onDisk_meets {α : Type} {Q : α → Prop} (rid : ℕ) {p : DiskM α}
    (h : S.diskContract.Meets (OnOk Q) p) : S.contract.Meets (OnOk Q) (onDisk rid p : RtM κ α) :=
  Contract.Meets.lift (fun _ hpre => hpre) (fun _ _ hpost => hpost) h

/-- An operation on memory within the contract. -/
theorem memory_meets (rid : ℕ) {op : MemoryOp κ} (hpre : S.contract.pre (.memory rid op))
    {Q : op.Answer → Prop} (hQ : ∀ a, op.Gives S.WarmOk S.WarmishOk a → Q a) :
    S.contract.Meets (OnOk Q) (memory rid op) := by
  refine ⟨hpre, ?_⟩
  intro answer hanswer
  cases answer with
  | error => exact fun a ha => nomatch ha
  | ok a =>
    intro a' ha
    cases ha
    exact hQ _ (hanswer _ rfl)

theorem rt_ofExcept_meets {α : Type} {Q : α → Prop} {x : Except Error α}
    (h : ∀ a, x = .ok a → Q a) :
    S.contract.Meets (OnOk Q) (Fallible.ofExcept x : RtM κ α) := h

theorem rt_ofExcept_ok_meets {α : Type} {x : Except Error α} {a : α} (h : x = .ok a) :
    S.contract.Meets (OnOk fun result => result = a) (Fallible.ofExcept x : RtM κ α) := by
  apply rt_ofExcept_meets
  intro result hresult
  rw [h] at hresult
  exact (Except.ok.inj hresult).symm

theorem rt_pure_meets {α : Type} {Q : α → Prop} {a : α} (h : Q a) :
    S.contract.Meets (OnOk Q) (pure a : RtM κ α) := by
  intro a' ha
  cases ha
  exact h

theorem rt_reject_meets {bad : Bool} {e : Error} :
    S.contract.Meets (OnOk fun _ => bad = false) (Fallible.reject bad e : RtM κ Unit) := by
  cases bad with
  | false => exact fun _ _ => rfl
  | true => exact fun _ h => nomatch h

/-- The result of `prepare`: what compiling the source gives. -/
def Compiled (S : Provenance κ) (source : Bytes) (prepared : PreparedComponent κ) : Prop :=
  ∃ bytes, S.engine.compile source = .ok (prepared, bytes)

section Prepare

variable {self : RuntimeInner} {source : Bytes}

/-- A hit on disk. -/
theorem load_profiles_meets (hS : S.Sound) (hmem : source ∈ S.sources) (rid : ℕ) (disk : DiskCache)
    (profiles : List WasiProfile) :
    S.contract.Meets (OnOk fun found => ∀ prepared, found = some prepared →
      S.Compiled source prepared)
      (load_profiles S.E S.engine rid disk (component_digest S.E.crypto source) profiles) := by
  induction profiles with
  | nil => exact rt_pure_meets nofun
  | cons profile rest ih =>
    rw [load_profiles]
    refine .bindF (onDisk_meets rid (load_meets hS disk _ profile)) ?_
    intro found hfound
    cases found with
    | none => exact ih
    | some bytes =>
      obtain ⟨prepared, horigin, hprofile⟩ := hfound bytes rfl
      have hde : S.engine.deserialize_component ⟨bytes, profile⟩ = .ok prepared :=
        hS.deserialize_component horigin hprofile.symm
      have hcompile := hS.compile_of_origin hmem horigin
      refine .bindF (rt_ofExcept_ok_meets hde) ?_
      intro result hresult
      subst hresult
      refine .bindF rt_reject_meets fun _ _ => ?_
      refine .bindF (memory_meets (Q := fun _ => True) rid ?_ fun _ _ => trivial)
        fun _ _ => ?_
      · exact ⟨⟨_, rfl, result, horigin, hprofile.symm⟩, ⟨_, rfl, bytes, horigin⟩⟩
      refine rt_pure_meets ?_
      rintro _ ⟨⟩
      exact ⟨bytes, hcompile⟩

/-- A miss everywhere. -/
theorem compile_and_publish_meets (hmem : source ∈ S.sources)
    (hdisk : ∀ disk, self.disk = some disk → S.Shares disk) :
    S.contract.Meets (OnOk (S.Compiled source))
      (compile_and_publish S.E S.engine self (component_digest S.E.crypto source) source) := by
  unfold compile_and_publish
  refine .bindF (Q := fun _ => True) ?_ fun _ _ => ?_
  · refine ⟨trivial, ?_⟩
    intro answer _
    cases answer <;> exact fun _ _ => trivial
  refine .bindF (rt_ofExcept_meets (Q := fun result =>
    S.engine.compile source = .ok result) fun _ h => h) ?_
  rintro ⟨prepared, aot_bytes⟩ hcompile
  have horigin : S.Origin (component_digest S.E.crypto source) prepared aot_bytes :=
    ⟨source, hmem, rfl, hcompile⟩
  refine .bindF (Q := fun _ => True) ?_ fun _ _ => ?_
  · -- Whether the publication succeeds makes no difference.
    unfold publish_to_disk
    cases hself : self.disk with
    | none => exact rt_pure_meets trivial
    | some disk =>
      refine .bind (onDisk_meets self.rid
        (publish_meets (hdisk disk hself) horigin)) ?_
      intro result _
      cases result with
      | ok => exact fun _ _ => trivial
      | error e => exact ⟨trivial, fun _ _ _ _ => trivial⟩
  refine .bindF (memory_meets (Q := fun _ => True) self.rid ?_ fun _ _ => trivial)
    fun _ _ => ?_
  · exact ⟨⟨_, rfl, prepared, horigin, rfl⟩, ⟨_, rfl, aot_bytes, horigin⟩⟩
  exact rt_pure_meets ⟨aot_bytes, hcompile⟩

/-- From disk, or compiled. -/
theorem prepare_cold_meets (hS : S.Sound) (hmem : source ∈ S.sources)
    (hdisk : ∀ disk, self.disk = some disk → S.Shares disk) :
    S.contract.Meets (OnOk (S.Compiled source))
      (prepare_cold S.E S.engine self (component_digest S.E.crypto source) source) := by
  unfold prepare_cold
  refine .bindF (Q := fun found => ∀ prepared, found = some prepared →
    S.Compiled source prepared) ?_ ?_
  · unfold load_from_disk
    cases self.disk with
    | none => exact rt_pure_meets nofun
    | some disk => exact load_profiles_meets hS hmem self.rid disk WasiProfile.ALL
  intro found hfound
  cases found with
  | some prepared => exact rt_pure_meets (hfound prepared rfl)
  | none => exact compile_and_publish_meets hmem hdisk

/-- A hit in the warm map. -/
theorem warm_meets (hS : S.Sound) (hmem : source ∈ S.sources) (rid : ℕ) :
    S.contract.Meets (OnOk fun found => ∀ prepared, found = some prepared →
      S.Compiled source prepared)
      (memory rid (.warm (component_digest S.E.crypto source))) := by
  refine memory_meets rid ?_ ?_
  · exact trivial
  rintro found hfound prepared rfl
  obtain ⟨d, hd, bytes, horigin⟩ := hfound prepared rfl
  rw [Digest.ext hd] at horigin
  exact ⟨bytes, hS.compile_of_origin hmem horigin⟩

/-- From memory, from disk, or compiled. -/
theorem prepare_locked_meets (hS : S.Sound) (hmem : source ∈ S.sources)
    (hdisk : ∀ disk, self.disk = some disk → S.Shares disk) :
    S.contract.Meets (OnOk (S.Compiled source))
      (prepare_locked S.E S.engine self (component_digest S.E.crypto source) source) := by
  unfold prepare_locked
  refine .bindF (warm_meets hS hmem self.rid) ?_
  intro found hfound
  cases found with
  | some prepared => exact rt_pure_meets (hfound prepared rfl)
  | none =>
    refine .bindF (memory_meets (Q := fun found => ∀ aot, found = some aot →
      S.WarmishOk (component_digest S.E.crypto source).text aot) self.rid ?_ ?_) ?_
    · exact trivial
    · rintro found hpost aot rfl
      exact hpost aot rfl
    intro found hfound
    cases found with
    | none => exact prepare_cold_meets hS hmem hdisk
    | some aot =>
      -- The bytes in memory come from a compilation, of the same source because of the digest.
      obtain ⟨d, hd, prepared, horigin, hprofile⟩ := hfound aot rfl
      rw [Digest.ext hd] at horigin
      have hde := hS.deserialize_component horigin hprofile
      have hcompile := hS.compile_of_origin hmem horigin
      refine .bindF (rt_ofExcept_ok_meets hde) ?_
      rintro _ rfl
      refine .bindF (memory_meets (Q := fun _ => True) self.rid ?_
        fun _ _ => trivial) fun _ _ => ?_
      · exact ⟨_, rfl, aot.bytes, horigin⟩
      exact rt_pure_meets ⟨aot.bytes, hcompile⟩

/-- `prepare` of one of the sources keeps the contract and returns what compiling gives. -/
theorem prepare_meets (hS : S.Sound) (hmem : source ∈ S.sources)
    (hdisk : ∀ disk, self.disk = some disk → S.Shares disk) :
    S.contract.Meets (OnOk (S.Compiled source))
      (prepare S.E S.engine self (component_digest S.E.crypto source) source) := by
  unfold prepare
  refine .bindF (warm_meets hS hmem self.rid) ?_
  intro found hfound
  cases found with
  | some prepared => exact rt_pure_meets (hfound prepared rfl)
  | none =>
    refine .bindF (Q := fun _ => True) ?_ fun _ _ => ?_
    · refine ⟨trivial, ?_⟩
      intro answer _
      cases answer <;> exact fun _ _ => trivial
    refine ⟨trivial, fun _ _ => ?_⟩
    refine .bind (prepare_locked_meets hS hmem hdisk) ?_
    intro result hresult
    exact ⟨trivial, fun _ _ => hresult⟩

end Prepare

end Provenance

/-! ## Any number of calls

Calls that keep the contract keep the invariant, in every interleaving. -/

/-- A call of one of the three methods, in a runtime. -/
inductive Call where
  | prepare (self : RuntimeInner) (source : Bytes)
  | tier (self : RuntimeInner) (digest : Digest)
  | demote (self : RuntimeInner) (digest : Digest)

/-- The runtime of a call. -/
def Call.self : Call → RuntimeInner
  | .prepare self _ | .tier self _ | .demote self _ => self

/-- What a call returns. -/
inductive Outcome (κ : Type) where
  | prepared (result : Except Error (PreparedComponent κ))
  | tier (result : Except Error PackageTier)
  | demoted (result : Except Error Unit)
  deriving DecidableEq

/-- What a call runs; `prepare` is called with the digest of its source. -/
def Call.program {κ : Type} (E : CacheEnv) (engine : Engine κ) :
    Call → Prog (RtOp κ) RtOp.Answer (Outcome κ)
  | .prepare self source =>
    Prog.bind (Cache.prepare E engine self (component_digest E.crypto source) source)
      fun result => .ret (.prepared result)
  | .tier self digest => Prog.bind (Cache.tier self digest) fun result => .ret (.tier result)
  | .demote self digest => Prog.bind (Cache.demote self digest) fun result => .ret (.demoted result)

namespace Provenance

variable {κ : Type} {S : Provenance κ}

/-- The search for a published artifact only looks. -/
theorem contains_any_meets (rid : ℕ) (digest : Digest) (profiles : List WasiProfile) :
    S.contract.Meets (OnOk fun _ => True) (contains_any rid digest profiles : RtM κ Bool) := by
  induction profiles with
  | nil => exact rt_pure_meets trivial
  | cons profile rest ih =>
    rw [contains_any]
    refine .bindF (Q := fun _ => True) (onDisk_meets rid ?_) ?_
    · unfold DiskCache.contains
      refine ⟨trivial, ?_⟩
      intro found _
      -- The metadata is looked for only if the artifact is there.
      cases found with
      | false => exact fun _ _ => trivial
      | true => exact ⟨trivial, fun _ _ _ _ => trivial⟩
    · intro found _
      cases found with
      | true => exact rt_pure_meets trivial
      | false => exact ih

/-- `tier` only looks. -/
theorem tier_meets (self : RuntimeInner) (digest : Digest) :
    S.contract.Meets (fun _ => True) (tier self digest : RtM κ PackageTier) := by
  have hdisk : S.contract.Meets (OnOk fun _ => True) (on_disk self digest : RtM κ Bool) := by
    unfold on_disk
    cases self.disk with
    | none => exact rt_pure_meets trivial
    | some disk => exact contains_any_meets _ _ _
  have hon : S.contract.Meets (OnOk fun _ => True)
      (tier_on_disk self digest : RtM κ PackageTier) := by
    refine .bindF hdisk ?_
    intro found _
    cases found <;> exact rt_pure_meets trivial
  -- A poisoned lock and a miss both go on to the disk.
  have hrest := Contract.Meets.mono hon fun _ _ => trivial
  refine ⟨trivial, ?_⟩
  intro answer _
  match answer with
  | .ok (some _) => exact trivial
  | .ok none => exact hrest
  | .error () => exact hrest

/-- What is claimed of the outcome of a call. -/
def Returns (S : Provenance κ) (call : Call) (outcome : Outcome κ) : Prop :=
  ∀ self source prepared, call = .prepare self source → outcome = .prepared (.ok prepared) →
    S.Compiled source prepared

/-- Every call. -/
theorem program_meets (hS : S.Sound) {call : Call}
    (hsource : ∀ self source, call = .prepare self source → source ∈ S.sources)
    (hdisk : ∀ disk, call.self.disk = some disk → S.Shares disk) :
    S.contract.Meets (S.Returns call) (call.program S.E S.engine) := by
  cases call with
  | prepare self source =>
    refine .bind (prepare_meets hS (hsource self source rfl) hdisk) ?_
    rintro result hresult self' source' prepared ⟨⟩ ⟨⟩
    exact hresult prepared rfl
  | tier self digest =>
    refine .bind (tier_meets self digest) ?_
    rintro result - self' source' prepared hcall
    cases hcall
  | demote self digest =>
    refine ⟨trivial, fun _ _ => ?_⟩
    rintro self' source' prepared hcall
    cases hcall

/-- Any number of calls of `prepare`, `tier` and `demote`, in any number of runtimes that
share a directory, interleaved in any way, with any operation failing, files vanishing and
calls dropped: whenever `prepare` returns a component, it is the one that compiling its
source gives, and so is its profile. -/
theorem prepare_transparent {ι : Type} [DecidableEq ι] (S : Provenance κ) (hS : S.Sound)
    (usize_max : ℕ) (calls : ι → Call)
    (hsource : ∀ i self source, calls i = .prepare self source → source ∈ S.sources)
    (hdisk : ∀ i disk, (calls i).self.disk = some disk → S.Shares disk)
    (s : System κ) (limits : ℕ → MemoryLimits) (hmemory : ∀ rid, s.memory rid = .new (limits rid))
    (hdir : ∀ d p kind found, s.world.dir (file_name d p kind) = some found →
      S.Genuine d p kind found)
    (P : Pool ι (System κ) (RtOp κ) RtOp.Answer (Outcome κ))
    (hrun : Pool.Run (rt_fault_step usize_max) Accident
      ⟨s, fun i => (calls i).program S.E S.engine⟩ P)
    (i : ι) (self : RuntimeInner) (source : Bytes) (prepared : PreparedComponent κ)
    (hi : calls i = .prepare self source)
    (hreturn : P.threads i = .ret (.prepared (.ok prepared))) :
    ∃ bytes, S.engine.compile source = .ok (prepared, bytes) := by
  have hinv : S.Inv s := by
    refine ⟨hdir, ?_⟩
    intro rid
    rw [hmemory rid]
    exact .new _
  have hmeets := (Pool.meets (Q := fun i => S.Returns (calls i))
    (fun _ _ _ _ h hpre hstep => h.step hpre hstep) (fun _ _ h => h.accident) hinv
    (fun i => program_meets hS (hsource i) (hdisk i)) hrun).2 i
  rw [hreturn] at hmeets
  exact hmeets self source prepared hi rfl

end Provenance

/-! ## One component

Compiled once, and then served by each of the tiers. -/

/-- An engine that knows one component, which exports `wasi:cli/run@0.2.0`. -/
def sampleEngine : Engine Unit where
  from_binary bytes :=
    if bytes = sampleComponent then .ok () else .error "failed to parse WebAssembly module"
  exports _ := ["wasi:cli/run@0.2.0"]
  serialize _ := .ok sampleAot
  deserialize bytes :=
    if bytes = sampleAot then .ok () else .error "expected a valid serialized component"

theorem sampleComponent_digest :
    component_digest sampleCacheEnv.crypto sampleComponent = sampleDigest := by
  have hsha : sampleCacheEnv.crypto.sha256 sampleComponent = sampleComponentSha := by
    simp only [sampleCacheEnv, sampleCacheCrypto, if_true]
  have hhex : hexEncode sampleComponentSha = sampleDigest.text := by decide
  apply Digest.ext
  show hexEncode (sampleCacheEnv.crypto.sha256 sampleComponent) = sampleDigest.text
  rw [hsha, hhex]

theorem sampleEngine_compile :
    sampleEngine.compile sampleComponent = .ok (⟨(), .Cli0_2⟩, sampleAot) := by
  have hfrom : sampleEngine.from_binary sampleComponent = .ok () := by
    simp only [sampleEngine, if_true]
  have hdetect : sampleEngine.detect_profile () = .ok .Cli0_2 := by decide
  exact Engine.compile_ok hfrom hdetect rfl

/-- The component, the cache of `DiskCache.lean` and nothing else. -/
def sampleProvenance : Provenance Unit :=
  ⟨sampleCacheEnv, sampleEngine, sampleCache, {sampleComponent}⟩

theorem sampleProvenance_sound : sampleProvenance.Sound where
  no_collision := Set.injOn_singleton _ _
  deserialize_serialize component bytes hser := by
    obtain rfl := Except.ok.inj hser
    simp only [sampleProvenance, sampleEngine, if_true]
  decodes d prepared bytes horigin found _ metadata hdecode := by
    obtain ⟨source, rfl, rfl, hcompile⟩ := horigin
    have hpair := Except.ok.inj (sampleEngine_compile.symm.trans hcompile)
    obtain ⟨rfl, rfl⟩ := Prod.mk.inj hpair
    show metadata = sampleCache.metadata_of sampleCacheEnv
      (component_digest sampleCacheEnv.crypto sampleComponent) .Cli0_2 sampleAot
    rw [sampleComponent_digest, sampleCache_metadata_of]
    -- The table decodes one text.
    have htable : sampleCacheEnv.from_slice found = .ok metadata := hdecode
    simp only [sampleCacheEnv] at htable
    split at htable
    · exact (Except.ok.inj htable).symm
    · cases htable

/-- A runtime with that cache. -/
def sampleRuntime (rid : ℕ) (pid : UInt32) : RuntimeInner where
  rid := rid
  pid := pid
  config := ⟨64, 1024, 512 * 1024 * 1024⟩
  disk := some sampleCache

/-- Nothing on disk and nothing in memory. -/
def emptySystem : System Unit where
  world := emptyWorld
  memory rid := .new (sampleRuntime rid 1).config
  locks _ := .new
  disk_publish_failures _ := 0

/-- One call for each tier: a first one, which compiles, one that finds the component warm, one
that finds it warmish after a demotion, and one in another process, with the disk in common. -/
def eachTier : Fin 5 → Call
  | 0 | 1 | 3 => .prepare (sampleRuntime 0 1) sampleComponent
  | 2 => .demote (sampleRuntime 0 1) (component_digest sampleCacheEnv.crypto sampleComponent)
  | 4 => .prepare (sampleRuntime 1 2) sampleComponent

/-- One after the other they come to their ends. All return what compiling gives, though only the
first compiles and publishes: the last temporary is its second. -/
theorem prepare_transparent_tiers :
    ∃ P : Pool (Fin 5) (System Unit) (RtOp Unit) RtOp.Answer (Outcome Unit),
      Pool.Run (rt_fault_step (2 ^ 64 - 1)) Accident
        ⟨emptySystem, fun i => (eachTier i).program sampleCacheEnv sampleEngine⟩ P ∧
      P.state.world.sequence 1 = 2 ∧ P.state.world.sequence 2 = 0 ∧
      (∀ i, i ≠ 2 → P.threads i = .ret (.prepared (.ok ⟨(), .Cli0_2⟩))) ∧
      ∃ bytes, sampleEngine.compile sampleComponent = .ok (⟨(), .Cli0_2⟩, bytes) := by
  have hcomputed : (Pool.follow (RtOp.answer (2 ^ 64 - 1))
      ⟨emptySystem, fun i => (eachTier i).program sampleCacheEnv sampleEngine⟩
      (List.ofFn fun i : Fin 5 => List.replicate 25 i).flatten).map (fun P =>
        (P.state.world.sequence 1, P.state.world.sequence 2,
          decide (∀ i, i ≠ 2 → P.result i = some (.prepared (.ok ⟨(), .Cli0_2⟩)))))
      = some (2, 0, true) := by
    decide +kernel
  obtain ⟨P, hP, hcomputed⟩ := Option.map_eq_some_iff.mp hcomputed
  obtain ⟨hfirst, hcomputed⟩ := Prod.mk.inj hcomputed
  obtain ⟨hlast, hresults⟩ := Prod.mk.inj hcomputed
  have hreturned : ∀ i, i ≠ 2 → P.threads i = .ret (.prepared (.ok ⟨(), .Cli0_2⟩)) :=
    fun i hi => Pool.threads_of_result (of_decide_eq_true hresults i hi)
  have hrun : Pool.Run (rt_fault_step (2 ^ 64 - 1)) Accident
      ⟨emptySystem, fun i => (eachTier i).program sampleCacheEnv sampleEngine⟩ P :=
    Pool.follow_run (fun s e r s' h => .inl (rt_step_of_answer s e r s' h)) hP
  refine ⟨P, hrun, hfirst, hlast, hreturned, ?_⟩
  -- What is said of all of them, at the one that was served from disk.
  refine Provenance.prepare_transparent sampleProvenance sampleProvenance_sound (2 ^ 64 - 1)
    eachTier ?_ ?_ emptySystem _ (fun _ => rfl) (fun _ _ _ _ h => nomatch h) P hrun 4 _ _ _ rfl
    (hreturned 4 (by decide))
  · intro i self source hi
    match i with
    | 0 | 1 | 3 | 4 =>
      cases hi
      rfl
    | 2 => cases hi
  · intro i disk hi
    match i with
    | 0 | 1 | 2 | 3 | 4 =>
      cases hi
      exact ⟨rfl, rfl⟩

end WasmRuntime.Cache
