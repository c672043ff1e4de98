/-
`cache.rs`: the authenticated disk AOT cache.

An entry is two files, the native artifact and a JSON record that names what it is an artifact of,
how long it is and its authentication tag.
-/
import WasmRuntime.Crate
import WasmRuntime.Json
import WasmRuntime.FileSystem

set_option autoImplicit false

namespace WasmRuntime.Cache

open ByteCodec Prog Function

/-! ## Types

A digest has 64 characters by its type, since every one in the crate comes from
`component_digest`. -/

inductive WasiProfile where
  | Cli0_3 | Cli0_2 | Http0_3 | Http0_2
  deriving DecidableEq, Repr

/-- `WasiProfile::ALL`. -/
def WasiProfile.ALL : List WasiProfile := [.Cli0_3, .Cli0_2, .Http0_3, .Http0_2]

/-- `WasiProfile::cache_id`. -/
def WasiProfile.cache_id : WasiProfile → String
  | .Cli0_3 => "wasi-cli-command-0.3.0"
  | .Cli0_2 => "wasi-cli-command-0.2"
  | .Http0_3 => "wasi-http-service-0.3.0"
  | .Http0_2 => "wasi-http-proxy-0.2"

/-- The identifiers tell the profiles apart. -/
theorem WasiProfile.cache_id_injective {p q : WasiProfile} (h : p.cache_id = q.cache_id) :
    p = q := by
  cases p <;> cases q <;> first | rfl | exact absurd h (by decide)

/-- A lowercase hexadecimal character. -/
def isHexChar (c : Char) : Bool := ('0' ≤ c && c ≤ '9') || ('a' ≤ c && c ≤ 'f')

/-- A component digest: what `component_digest` returns, and the only strings the
runtime hands to the cache. -/
@[ext]
structure Digest where
  text : String
  length_eq : text.toList.length = 64
  hex : text.toList.all isHexChar = true
  deriving DecidableEq

theorem hexDigit_isHexChar : ∀ d < 16, isHexChar (hexDigit d) = true := by decide

/-- What `hex::encode` prints, character by character. -/
theorem toList_hexEncode (bytes : Bytes) :
    (hexEncode bytes).toList.length = 2 * bytes.length ∧
      (hexEncode bytes).toList.all isHexChar = true := by
  rw [hexEncode, String.toList_ofList]
  induction bytes with
  | nil => exact ⟨rfl, rfl⟩
  | cons b bytes ih =>
    obtain ⟨hlen, hall⟩ := ih
    have hb : b.toNat < 256 := b.toNat_lt
    rw [List.flatMap_cons, List.length_append, List.all_append, hlen, hall, hexPair,
      List.length_cons, List.length_cons, List.all_cons, List.all_cons,
      hexDigit_isHexChar _ (by omega), hexDigit_isHexChar _ (by omega)]
    refine ⟨?_, rfl⟩
    rw [List.length_nil, List.length_cons]
    omega

def component_digest (C : Crypto) (bytes : Bytes) : Digest where
  text := C.sha256_hex bytes
  length_eq := by
    rw [Crypto.sha256_hex, (toList_hexEncode _).1, C.sha256_length]
  hex := (toList_hexEncode _).2

structure AotAuthenticationKey where
  bytes : Bytes
  length_eq : bytes.length = 32

/-- `DiskCacheConfig`; the directory `root` is the `Dir` the programs act on. -/
structure DiskCacheConfig where
  authentication_key : AotAuthenticationKey
  max_entry_bytes : ℕ

/-- `DiskCacheConfig::new`. -/
def DiskCacheConfig.new (authentication_key : AotAuthenticationKey) : DiskCacheConfig :=
  ⟨authentication_key, 256 * 1024 * 1024⟩

structure CacheIdentity where
  format : UInt8
  component_digest : String
  profile : String
  wasmtime_version : String
  target : String
  compiler_profile : String
  deriving DecidableEq, Repr

structure CacheMetadata where
  identity : CacheIdentity
  artifact_len : ℕ
  authentication_tag : String
  deriving DecidableEq, Repr

structure DiskCache where
  config : DiskCacheConfig
  target : String

/-- What the cache takes from outside: the primitives and `serde_json::from_slice` at
`CacheMetadata`. -/
structure CacheEnv where
  crypto : Crypto
  from_slice : Bytes → Except String CacheMetadata

/-- `Serialize for CacheIdentity`. -/
def CacheIdentity.to_json (id : CacheIdentity) : Json.Text :=
  Json.obj [("format", Json.num id.format.toNat),
    ("component_digest", Json.str id.component_digest),
    ("profile", Json.str id.profile),
    ("wasmtime_version", Json.str id.wasmtime_version),
    ("target", Json.str id.target),
    ("compiler_profile", Json.str id.compiler_profile)]

/-- `Serialize for CacheMetadata`. -/
def CacheMetadata.to_json (md : CacheMetadata) : Json.Text :=
  Json.obj [("identity", md.identity.to_json),
    ("artifact_len", Json.num md.artifact_len),
    ("authentication_tag", Json.str md.authentication_tag)]

def CACHE_DOMAIN : Bytes := utf8 "runtrue-wasm-runtime.aot.v1" ++ [0]

/-! ## The operations of the cache

`publish` writes each file under a temporary name and renames it into place, the artifact first;
`load` takes either file for a sign that the entry exists. The two are programs over the file
operations of `FileSystem.lean`, so that each operation is a point at which it may fail or another
process may come in between. -/

/-- File operations, and `TEMP_SEQUENCE.fetch_add` of a process. -/
inductive DiskOp where
  | fs (op : FsOp)
  | fetch_add (pid : UInt32)
  deriving DecidableEq

/-- The answers. -/
@[reducible]
def DiskOp.Answer : DiskOp → Type
  | .fs op => op.Answer
  | .fetch_add _ => UInt64

/-- A fallible program over the disk. -/
abbrev DiskM (α : Type) : Type := Fallible DiskOp DiskOp.Answer Error α

/-- One file operation. -/
def fs (op : FsOp) : Prog DiskOp DiskOp.Answer op.Answer := .vis (.fs op) .ret

/-- `Path::exists`. -/
def exists_ (path : String) : DiskM Bool := Fallible.run (fs (.exists_ path))

/-- `Path::is_file`. -/
def is_file (path : String) : DiskM Bool := Fallible.run (fs (.is_file path))

/-- `fs::read(path).map_err(wrap)?`. -/
def read (wrap : String → Error) (path : String) : DiskM Bytes :=
  Fallible.orElse wrap (fs (.read path))

/-- `fs::write(path, bytes)?`. -/
def write (path : String) (bytes : Bytes) : DiskM Unit :=
  Fallible.orElse Error.Io (fs (.write path bytes))

/-- `set_private_file(path)?`. -/
def set_private_file (path : String) : DiskM Unit :=
  Fallible.orElse Error.Io (fs (.set_permissions path))

/-- `fs::rename(src, dst)?`. -/
def rename (src dst : String) : DiskM Unit := Fallible.orElse Error.Io (fs (.rename src dst))

/-- `TEMP_SEQUENCE.fetch_add(1, Ordering::Relaxed)`. -/
def fetch_add (pid : UInt32) : DiskM UInt64 :=
  Fallible.run (.vis (.fetch_add pid) .ret : Prog DiskOp DiskOp.Answer UInt64)

/-- `atomic_publish`, in the process `pid`. -/
def atomic_publish (pid : UInt32) (path : String) (bytes : Bytes) : DiskM Unit := do
  let sequence ← fetch_add pid
  let temporary := with_extension path
    ("tmp-" ++ (Nat.repr pid.toNat ++ "-" ++ Nat.repr sequence.toNat))
  write temporary bytes
  set_private_file temporary
  rename temporary path

namespace DiskCache

variable (E : CacheEnv) (self : DiskCache)

/-- `DiskCache::identity`. -/
def identity (digest : Digest) (profile : WasiProfile) : CacheIdentity where
  format := 1
  component_digest := digest.text
  profile := profile.cache_id
  wasmtime_version := WASMTIME_VERSION
  target := self.target
  compiler_profile := "cranelift-speed-and-size;component-async;fuel;epoch;baseline"

/-- The profile's part of a file name. -/
def profile_name : WasiProfile → String
  | .Cli0_3 => "cli-p3"
  | .Cli0_2 => "cli-p2"
  | .Http0_3 => "http-p3"
  | .Http0_2 => "http-p2"

/-- The stem of an entry's file names. -/
def stem (digest : Digest) (profile : WasiProfile) : String :=
  digest.text ++ "-" ++ profile_name profile

/-- `DiskCache::paths`. -/
def paths (digest : Digest) (profile : WasiProfile) : String × String :=
  (stem digest profile ++ ".aot", stem digest profile ++ ".aot.json")

/-- `DiskCache::authentication_tag`, finalised. -/
def authentication_tag (identity : CacheIdentity) (artifact : Bytes) : Bytes :=
  E.crypto.hmac_sha256 self.config.authentication_key.bytes
    (CACHE_DOMAIN ++ Json.render identity.to_json ++ artifact)

/-- `DiskCache::contains`. -/
def contains (digest : Digest) (profile : WasiProfile) : DiskM Bool := do
  let (artifact, metadata) := paths digest profile
  if ← is_file artifact then is_file metadata else pure false

/-- The checks of `load` on the two files it has read. -/
def check (digest : Digest) (profile : WasiProfile) (metadata : CacheMetadata)
    (artifact : Bytes) : Except Error Unit := do
  if artifact.length != metadata.artifact_len then
    throw (Error.Cache "artifact length does not match metadata")
  let expected := self.authentication_tag E (self.identity digest profile) artifact
  match hexDecode metadata.authentication_tag with
  | none => throw (Error.Cache "authentication tag is malformed")
  | some supplied =>
    if supplied != expected then throw (Error.Cache "artifact authentication failed")
    else pure ()

/-- `DiskCache::load`, once one of the two files is known to exist. -/
def load_entry (digest : Digest) (profile : WasiProfile) : DiskM (Option Bytes) := do
  let (artifact_path, metadata_path) := paths digest profile
  let metadata_bytes ← read (fun error => .Cache ("metadata read failed: " ++ error)) metadata_path
  let metadata ← Fallible.ofExcept ((E.from_slice metadata_bytes).mapError
    fun error => .Cache ("metadata is malformed: " ++ error))
  Fallible.reject (metadata.identity != self.identity digest profile)
    (.Cache "artifact identity is incompatible")
  Fallible.reject (metadata.artifact_len > self.config.max_entry_bytes)
    (.Cache "artifact exceeds the configured limit")
  let artifact ← read (fun error => .Cache ("artifact read failed: " ++ error)) artifact_path
  Fallible.ofExcept (self.check E digest profile metadata artifact)
  pure (some artifact)

/-- `DiskCache::load`. The second `exists` is behind a `&&`. -/
def load (digest : Digest) (profile : WasiProfile) : DiskM (Option Bytes) := do
  let (artifact_path, metadata_path) := paths digest profile
  if ← exists_ artifact_path then self.load_entry E digest profile
  else if ← exists_ metadata_path then self.load_entry E digest profile
  else pure none

/-- The record `publish` writes for an artifact. -/
def metadata_of (digest : Digest) (profile : WasiProfile) (artifact : Bytes) : CacheMetadata where
  identity := self.identity digest profile
  artifact_len := artifact.length
  authentication_tag := hexEncode
    (self.authentication_tag E (self.identity digest profile) artifact)

/-- `DiskCache::publish`, in the process `pid`. -/
def publish (pid : UInt32) (digest : Digest) (profile : WasiProfile) (artifact : Bytes) :
    DiskM Unit := do
  Fallible.reject (artifact.length > self.config.max_entry_bytes)
    (.Cache "artifact exceeds the configured limit")
  let metadata := Json.render (self.metadata_of E digest profile artifact).to_json
  let (artifact_path, metadata_path) := paths digest profile
  atomic_publish pid artifact_path artifact
  atomic_publish pid metadata_path metadata

end DiskCache

/-! ## The disk without faults

A rename or a read of a file that is not there fails, and nothing else does. -/

/-- The directory, and the `TEMP_SEQUENCE` of each process. -/
structure World where
  dir : Dir
  sequence : UInt32 → UInt64

/-- An operation when nothing goes wrong. -/
def DiskOp.run (w : World) : (op : DiskOp) → op.Answer × World
  | .fs op => ((op.run w.dir).1, { w with dir := (op.run w.dir).2 })
  | .fetch_add pid =>
    (w.sequence pid, { w with sequence := update w.sequence pid (w.sequence pid + 1) })

/-- One file operation of a disk without faults. -/
def plain_step (w : World) (op : DiskOp) (answer : op.Answer) (w' : World) : Prop :=
  op.run w = (answer, w')

/-! What each operation can do. -/

section PlainStep

variable {w w' : World}

theorem plain_fetch_add {pid : UInt32} {r : UInt64} (h : plain_step w (.fetch_add pid) r w') :
    w'.dir = w.dir := by
  rw [← (Prod.mk.inj h).2]

theorem plain_write {q : String} {bytes : Bytes} {r : Except String Unit}
    (h : plain_step w (.fs (.write q bytes)) r w') :
    r = .ok () ∧ w' = { w with dir := update w.dir q (some bytes) } :=
  ⟨(Prod.mk.inj h).1.symm, (Prod.mk.inj h).2.symm⟩

theorem plain_exists {q : String} {r : Bool} (h : plain_step w (.fs (.exists_ q)) r w') :
    r = (w.dir q).isSome ∧ w' = w :=
  ⟨(Prod.mk.inj h).1.symm, (Prod.mk.inj h).2.symm⟩

theorem plain_read {q : String} {r : Except String Bytes}
    (h : plain_step w (.fs (.read q)) r w') :
    w' = w ∧ (w.dir q = none → r = .error NOT_FOUND) ∧
      ∀ bytes, w.dir q = some bytes → r = .ok bytes := by
  have hrun : DiskOp.run w (.fs (.read q)) = (r, w') := h
  simp only [DiskOp.run, FsOp.run] at hrun
  cases hq : w.dir q with
  | none =>
    rw [hq] at hrun
    obtain ⟨rfl, rfl⟩ := Prod.mk.inj hrun
    refine ⟨rfl, fun _ => rfl, ?_⟩
    intro bytes hbytes
    cases hbytes
  | some found =>
    rw [hq] at hrun
    obtain ⟨rfl, rfl⟩ := Prod.mk.inj hrun
    refine ⟨rfl, fun hnone => ?_, ?_⟩
    · cases hnone
    · rintro bytes ⟨⟩
      rfl

theorem plain_set_permissions {q : String} {r : Except String Unit}
    (h : plain_step w (.fs (.set_permissions q)) r w') : w' = w := by
  rw [← (Prod.mk.inj h).2, FsOp.run]
  cases w.dir q <;> rfl

/-- A rename moves the file, or finds none. -/
theorem plain_rename {src dst : String} {r : Except String Unit}
    (h : plain_step w (.fs (.rename src dst)) r w') :
    (r = .ok () ∧ ∃ bytes, w.dir src = some bytes ∧
      w' = { w with dir := w.dir.renamed src dst bytes }) ∨
    (r = .error NOT_FOUND ∧ w' = w) := by
  have hrun : DiskOp.run w (.fs (.rename src dst)) = (r, w') := h
  simp only [DiskOp.run, FsOp.run] at hrun
  cases hsrc : w.dir src with
  | some bytes =>
    rw [hsrc] at hrun
    obtain ⟨hr, hw⟩ := Prod.mk.inj hrun
    exact .inl ⟨hr.symm, bytes, rfl, hw.symm⟩
  | none =>
    rw [hsrc] at hrun
    obtain ⟨hr, hw⟩ := Prod.mk.inj hrun
    exact .inr ⟨hr.symm, hw.symm⟩

end PlainStep

/-! ## File names

The names carry the argument. Every file the cache touches is called `digest-profile.rest`, where
the digest is 64 hexadecimal characters and neither it nor the profile has a dot, and `rest` says
which of the two files it is, or a temporary of which. `FileKind` names the four cases and
`file_name_inj` says that the name determines entry and case. -/

/-- What a file of the cache is: one of the two files of an entry, or a temporary that
will be renamed to it. -/
inductive FileKind where
  | artifact
  | metadata
  | artifactTemp (tag : String)
  | metadataTemp (tag : String)
  deriving DecidableEq

/-- What follows the stem and its dot. -/
def FileKind.rest : FileKind → String
  | .artifact => "aot"
  | .metadata => "aot.json"
  | .artifactTemp tag => "tmp-" ++ tag
  | .metadataTemp tag => "aot.tmp-" ++ tag

/-- The name of a file of the cache. -/
def file_name (digest : Digest) (profile : WasiProfile) (kind : FileKind) : String :=
  DiskCache.stem digest profile ++ "." ++ kind.rest

/-- The two files of an entry. -/
theorem paths_eq (digest : Digest) (profile : WasiProfile) :
    DiskCache.paths digest profile
      = (file_name digest profile .artifact, file_name digest profile .metadata) := by
  simp only [DiskCache.paths, file_name, FileKind.rest, String.append_assoc]
  rfl

theorem Digest.no_dot (digest : Digest) : '.' ∉ digest.text.toList := by
  intro hdot
  have hhex := List.all_eq_true.mp digest.hex _ hdot
  exact absurd hhex (by decide)

theorem stem_toList (digest : Digest) (profile : WasiProfile) :
    (DiskCache.stem digest profile).toList
      = digest.text.toList ++ '-' :: (DiskCache.profile_name profile).toList := by
  rw [DiskCache.stem, String.toList_append, String.toList_append, List.append_assoc]
  rfl

/-- No dot comes before the extension. -/
theorem stem_no_dot (digest : Digest) (profile : WasiProfile) :
    '.' ∉ (DiskCache.stem digest profile).toList := by
  rw [stem_toList, List.mem_append]
  rintro (hdot | hdot)
  · exact digest.no_dot hdot
  · revert hdot
    cases profile <;> decide

theorem stem_ne_empty (digest : Digest) (profile : WasiProfile) :
    DiskCache.stem digest profile ≠ "" := by
  intro h
  have hlist := stem_toList digest profile
  rw [h] at hlist
  have hlen := congrArg List.length hlist
  rw [List.length_append, digest.length_eq] at hlen
  simp at hlen

/-- The digest has a fixed length, so the stem determines entry and profile. -/
theorem stem_inj {d d' : Digest} {p p' : WasiProfile}
    (h : DiskCache.stem d p = DiskCache.stem d' p') : d = d' ∧ p = p' := by
  have hlist := congrArg String.toList h
  rw [stem_toList, stem_toList] at hlist
  obtain ⟨hd, hp⟩ := List.append_inj hlist (by rw [d.length_eq, d'.length_eq])
  refine ⟨Digest.ext (String.toList_inj.mp hd), ?_⟩
  revert hp
  cases p <;> cases p' <;> decide

theorem FileKind.rest_toList (k : FileKind) : k.rest.toList = match k with
    | .artifact => ['a', 'o', 't']
    | .metadata => ['a', 'o', 't', '.', 'j', 's', 'o', 'n']
    | .artifactTemp tag => ['t', 'm', 'p', '-'] ++ tag.toList
    | .metadataTemp tag => ['a', 'o', 't', '.', 't', 'm', 'p', '-'] ++ tag.toList := by
  cases k with
  | artifact => decide
  | metadata => decide
  | artifactTemp tag => exact String.toList_append
  | metadataTemp tag => exact String.toList_append

/-- The extension tells the kinds apart. -/
theorem FileKind.rest_inj {k k' : FileKind} (h : k.rest = k'.rest) : k = k' := by
  have hlist := congrArg String.toList h
  rw [FileKind.rest_toList, FileKind.rest_toList] at hlist
  cases k <;> cases k' <;> simp_all [String.toList_inj]

/-- A file name determines the entry it belongs to and what it is there. -/
theorem file_name_inj {d d' : Digest} {p p' : WasiProfile} {k k' : FileKind}
    (h : file_name d p k = file_name d' p' k') : d = d' ∧ p = p' ∧ k = k' := by
  have hlist := congrArg String.toList h
  simp only [file_name, String.toList_append, List.append_assoc] at hlist
  obtain ⟨hstem, hrest⟩ := split_at_first (stem_no_dot d p) (stem_no_dot d' p') hlist
  obtain ⟨rfl, rfl⟩ := stem_inj (String.toList_inj.mp hstem)
  exact ⟨rfl, rfl, FileKind.rest_inj (String.toList_inj.mp hrest)⟩

theorem file_name_ne {d : Digest} {p : WasiProfile} {k k' : FileKind} (h : k ≠ k') :
    file_name d p k ≠ file_name d p k' :=
  fun heq => h (file_name_inj heq).2.2

/-- The temporary of an artifact stands beside it. -/
theorem artifact_with_extension (d : Digest) (p : WasiProfile) (tag : String) :
    with_extension (file_name d p .artifact) ("tmp-" ++ tag) = file_name d p (.artifactTemp tag) :=
  with_extension_dot _ (stem_ne_empty d p) (by decide)

/-- The temporary of a metadata record keeps the `.aot`. -/
theorem metadata_with_extension (d : Digest) (p : WasiProfile) (tag : String) :
    with_extension (file_name d p .metadata) ("tmp-" ++ tag)
      = file_name d p (.metadataTemp tag) := by
  have hname : file_name d p .metadata = DiskCache.stem d p ++ ".aot" ++ "." ++ "json" := by
    simp only [file_name, FileKind.rest, String.append_assoc]
    rfl
  have hne : DiskCache.stem d p ++ ".aot" ≠ "" := by
    intro h
    have hlen := congrArg (fun s => s.toList.length) h
    simp [String.toList_append] at hlen
  rw [hname, with_extension_dot _ hne (by decide)]
  simp only [file_name, FileKind.rest, String.append_assoc]
  rfl

/-- What `publish` puts into each file of an entry, temporaries included. -/
def DiskCache.file_contents (E : CacheEnv) (self : DiskCache) (d : Digest) (p : WasiProfile)
    (artifact : Bytes) : FileKind → Bytes
  | .artifact | .artifactTemp _ => artifact
  | .metadata | .metadataTemp _ => Json.render (self.metadata_of E d p artifact).to_json

/-- Key and target are all of a cache that its records depend on. -/
theorem DiskCache.metadata_of_congr {E : CacheEnv} {self other : DiskCache}
    (hkey : self.config.authentication_key = other.config.authentication_key)
    (htarget : self.target = other.target) (d : Digest) (p : WasiProfile) (artifact : Bytes) :
    self.metadata_of E d p artifact = other.metadata_of E d p artifact := by
  have hid : self.identity d p = other.identity d p := by
    rw [DiskCache.identity, DiskCache.identity, htarget]
  rw [DiskCache.metadata_of, DiskCache.metadata_of, hid, DiskCache.authentication_tag,
    DiskCache.authentication_tag, hkey]

/-! ## The world after a publication

One file is new, and the temporary is gone as if it had never been. -/

/-- The tag `atomic_publish` puts into a temporary name in this world. -/
def temp_tag (pid : UInt32) (w : World) : String :=
  Nat.repr pid.toNat ++ "-" ++ Nat.repr (w.sequence pid).toNat

/-- The world with the next sequence number taken. -/
def World.bumped (w : World) (pid : UInt32) : World :=
  { w with sequence := update w.sequence pid (w.sequence pid + 1) }

@[simp] theorem World.bumped_dir (w : World) (pid : UInt32) : (w.bumped pid).dir = w.dir := rfl

/-- The directory after a publication: the temporary is gone and the path holds the bytes. -/
def published (w : World) (pid : UInt32) (path : String) (bytes : Bytes) : World :=
  let temporary := with_extension path ("tmp-" ++ temp_tag pid w)
  { w.bumped pid with
    dir := Dir.renamed (update w.dir temporary (some bytes)) temporary path bytes }

section Published

variable {w : World} {pid : UInt32} {path : String} {bytes : Bytes}

/-- The file is in place. -/
theorem published_dir_self : (published w pid path bytes).dir path = some bytes :=
  Dir.renamed_dst _ _ _ _

/-- The others are as they were. -/
theorem published_dir_of_ne {name : String} (hpath : name ≠ path)
    (htemp : name ≠ with_extension path ("tmp-" ++ temp_tag pid w)) :
    (published w pid path bytes).dir name = w.dir name := by
  unfold published
  dsimp only
  rw [Dir.renamed_of_ne _ _ htemp hpath, update_of_ne htemp]

end Published

/-! ## Loading from a directory at rest

With nobody else at work `load` is a function of the two files. -/

namespace DiskCache

variable {E : CacheEnv} {self : DiskCache} {d : Digest} {p : WasiProfile} {w : World}

/-- `load` in a directory that nobody else changes. -/
def load_now (E : CacheEnv) (self : DiskCache) (d : Digest) (p : WasiProfile) (w : World) :
    Except Error (Option Bytes) × World := interp DiskOp.run (self.load E d p) w

theorem interp_exists (path : String) (w : World) :
    interp DiskOp.run (exists_ path) w = (.ok (w.dir path).isSome, w) := rfl

theorem interp_read_some {wrap : String → Error} {path : String} {bytes : Bytes}
    (h : w.dir path = some bytes) :
    interp DiskOp.run (read wrap path) w = (.ok bytes, w) := by
  have hrun : FsOp.run w.dir (.read path) = (.ok bytes, w.dir) := by rw [FsOp.run, h]
  refine (interp_bind DiskOp.run (fs (.read path)) _ w).trans ?_
  rw [fs, interp_vis, DiskOp.run, hrun]
  rfl

theorem interp_read_none {wrap : String → Error} {path : String} (h : w.dir path = none) :
    interp DiskOp.run (read wrap path) w = (.error (wrap NOT_FOUND), w) := by
  have hrun : FsOp.run w.dir (.read path) = (.error NOT_FOUND, w.dir) := by rw [FsOp.run, h]
  refine (interp_bind DiskOp.run (fs (.read path)) _ w).trans ?_
  rw [fs, interp_vis, DiskOp.run, hrun]
  rfl

/-- Neither file: a miss. -/
theorem load_absent (ha : w.dir (file_name d p .artifact) = none)
    (hm : w.dir (file_name d p .metadata) = none) :
    self.load_now E d p w = (.ok none, w) := by
  rw [load_now, load, paths_eq]
  rw [interp_bind_ok (interp_exists _ w), ha]
  rw [if_neg (by simp), interp_bind_ok (interp_exists _ w), hm]
  rfl

/-- Either file: the rest of `load` decides. -/
theorem load_present (h : w.dir (file_name d p .artifact) ≠ none ∨
      w.dir (file_name d p .metadata) ≠ none) :
    self.load_now E d p w = interp DiskOp.run (self.load_entry E d p) w := by
  rw [load_now, load, paths_eq, interp_bind_ok (interp_exists _ w)]
  by_cases ha : w.dir (file_name d p .artifact) = none
  · have hm := h.resolve_left (fun hne => hne ha)
    rw [ha, if_neg (by simp), interp_bind_ok (interp_exists _ w),
      if_pos (Option.isSome_iff_ne_none.mpr hm)]
  · rw [if_pos (Option.isSome_iff_ne_none.mpr ha)]

/-- An artifact without its metadata is an error, not a miss. -/
theorem load_half {bytes : Bytes} (ha : w.dir (file_name d p .artifact) = some bytes)
    (hm : w.dir (file_name d p .metadata) = none) :
    self.load_now E d p w = (.error (.Cache ("metadata read failed: " ++ NOT_FOUND)), w) := by
  rw [load_present (.inl (by rw [ha]; simp)), load_entry, paths_eq]
  exact interp_bind_error (interp_read_none hm)

/-- The operations of `load`: it asks for the two files of its entry. -/
def Queries (d : Digest) (p : WasiProfile) (op : DiskOp) : Prop :=
  ∃ kind, (kind = .artifact ∨ kind = .metadata) ∧
    (op = .fs (.exists_ (file_name d p kind)) ∨ op = .fs (.read (file_name d p kind)))

theorem load_entry_only : Only (Queries d p) (self.load_entry E d p) := by
  rw [load_entry, paths_eq]
  refine Only.bindF ?_ fun metadata_bytes => ?_
  · exact ⟨⟨.metadata, .inr rfl, .inr rfl⟩, fun r => by cases r <;> exact trivial⟩
  refine Only.bindF trivial fun metadata => ?_
  refine Only.bindF (Only.reject _ _) fun _ => ?_
  refine Only.bindF (Only.reject _ _) fun _ => ?_
  refine Only.bindF ?_ fun artifact => ?_
  · exact ⟨⟨.artifact, .inl rfl, .inr rfl⟩, fun r => by cases r <;> exact trivial⟩
  exact Only.bindF trivial fun _ => trivial

/-- `load` asks for the two files of the entry. -/
theorem load_only : Only (Queries d p) (self.load E d p) := by
  rw [load, paths_eq]
  refine Only.bindF ⟨⟨.artifact, .inl rfl, .inl rfl⟩, fun _ => trivial⟩ fun found => ?_
  split
  · exact load_entry_only
  refine Only.bindF ⟨⟨.metadata, .inr rfl, .inl rfl⟩, fun _ => trivial⟩ fun found' => ?_
  split
  · exact load_entry_only
  · exact trivial

/-- What an entry loads as depends on its own two files only. -/
theorem load_now_congr {w' : World}
    (h : ∀ kind, kind = .artifact ∨ kind = .metadata →
      w'.dir (file_name d p kind) = w.dir (file_name d p kind)) :
    (self.load_now E d p w').1 = (self.load_now E d p w).1 := by
  refine interp_agree (S := fun s s' => ∀ kind, kind = .artifact ∨ kind = .metadata →
    s.dir (file_name d p kind) = s'.dir (file_name d p kind)) ?_ load_only h
  rintro s s' op hagree ⟨kind, hkind, rfl | rfl⟩
  · refine ⟨?_, hagree⟩
    show (s.dir _).isSome = (s'.dir _).isSome
    rw [hagree kind hkind]
  · have hread := hagree kind hkind
    refine ⟨?_, ?_⟩
    · show (FsOp.run s.dir (.read _)).1 = (FsOp.run s'.dir (.read _)).1
      rw [FsOp.run, FsOp.run, hread]
      cases s'.dir (file_name d p kind) <;> rfl
    · have hsame : ∀ t : World, (DiskOp.run t (.fs (.read (file_name d p kind)))).2 = t := by
        intro t
        show ({ t with dir := (FsOp.run t.dir (.read _)).2 } : World) = t
        rw [FsOp.run]
        cases t.dir (file_name d p kind) <;> rfl
      rw [hsame s, hsame s']
      exact hagree

/-- The record that `publish` writes passes the checks of `load`. -/
theorem check_metadata_of (E : CacheEnv) (self : DiskCache) (d : Digest) (p : WasiProfile)
    (artifact : Bytes) :
    self.check E d p (self.metadata_of E d p artifact) artifact = .ok () := by
  rw [check, metadata_of]
  dsimp only
  rw [bne_self_eq_false, hexDecode_hexEncode]
  simp only [bne_self_eq_false]
  rfl

/-- A published entry loads as the artifact it was published with. -/
theorem load_published {artifact : Bytes}
    (ha : w.dir (file_name d p .artifact) = some artifact)
    (hm : w.dir (file_name d p .metadata)
      = some (Json.render (self.metadata_of E d p artifact).to_json))
    (hserde : E.from_slice (Json.render (self.metadata_of E d p artifact).to_json)
      = .ok (self.metadata_of E d p artifact))
    (hlen : artifact.length ≤ self.config.max_entry_bytes) :
    self.load_now E d p w = (.ok (some artifact), w) := by
  have hid : ((self.metadata_of E d p artifact).identity != self.identity d p) = false :=
    bne_self_eq_false _
  have hsize : decide ((self.metadata_of E d p artifact).artifact_len
      > self.config.max_entry_bytes) = false := decide_eq_false (by
    rw [metadata_of]
    dsimp only
    omega)
  rw [load_present (.inl (by rw [ha]; simp)), load_entry, paths_eq]
  rw [interp_bind_ok (interp_read_some hm), hserde]
  show interp DiskOp.run ((Fallible.reject _ _ : DiskM Unit) >>= _ : DiskM (Option Bytes)) w = _
  rw [hid, Fallible.reject_false_bind, hsize, Fallible.reject_false_bind,
    interp_bind_ok (interp_read_some ha), check_metadata_of]
  rfl

end DiskCache

/-! ## One concrete entry

The digest and the tag are those of SHA-256 and HMAC-SHA256. -/

/-- A component in its binary form: an empty instance, exported as `wasi:cli/run@0.2.0`. -/
def sampleComponent : Bytes :=
  [0x00, 0x61, 0x73, 0x6d, 0x0d, 0x00, 0x01, 0x00, 0x05, 0x03, 0x01, 0x01, 0x00, 0x0b, 0x18,
    0x01, 0x00, 0x12] ++ utf8 "wasi:cli/run@0.2.0" ++ [0x05, 0x00, 0x00]

/-- SHA-256 of `sampleComponent`. -/
def sampleComponentSha : Bytes :=
  be 32 0x7410a2ce97bf1529c452cf530e6466c6c488fb66cd9a242afdf636893b4c707b

/-- Its digest. -/
def sampleDigest : Digest where
  text := "7410a2ce97bf1529c452cf530e6466c6c488fb66cd9a242afdf636893b4c707b"
  length_eq := by decide
  hex := by decide

/-- An artifact of three bytes. -/
def sampleAot : Bytes := [1, 2, 3]

theorem sampleCacheKey_length :
    (be 32 0x000102030405060708090a0b0c0d0e0f101112131415161718191a1b1c1d1e1f).length = 32 :=
  be_length 32 _

/-- A cache with the default limit. -/
def sampleCache : DiskCache where
  config := DiskCacheConfig.new
    ⟨be 32 0x000102030405060708090a0b0c0d0e0f101112131415161718191a1b1c1d1e1f,
      sampleCacheKey_length⟩
  target := "x86_64-linux"

/-- HMAC-SHA256 of the artifact under its identity. -/
def sampleAotTag : Bytes :=
  be 32 0x85999ae5b90b375d9ca25fd8a4d20bf239c8ae5157e15cadc79e20b22f14cdc6

/-- The two primitives at the inputs of the entry; SHA-256 of the empty string stands for
everything else. -/
def sampleCacheCrypto : Crypto where
  sha256 bytes :=
    if bytes = sampleComponent then sampleComponentSha
    else be 32 0xe3b0c44298fc1c149afbf4c8996fb92427ae41e4649b934ca495991b7852b855
  hmac_sha256 key bytes :=
    if key = sampleCache.config.authentication_key.bytes ∧ bytes = CACHE_DOMAIN ++
        Json.render (sampleCache.identity sampleDigest .Cli0_2).to_json ++ sampleAot
    then sampleAotTag else be 32 0
  sha256_length bytes := by
    split <;> exact be_length 32 _
  hmac_sha256_length key bytes := by
    split <;> exact be_length 32 _

/-- The record of the entry. -/
def sampleCacheMetadata : CacheMetadata where
  identity := sampleCache.identity sampleDigest .Cli0_2
  artifact_len := 3
  authentication_tag := "85999ae5b90b375d9ca25fd8a4d20bf239c8ae5157e15cadc79e20b22f14cdc6"

/-- The decoder, at the record of the entry. -/
def sampleCacheEnv : CacheEnv where
  crypto := sampleCacheCrypto
  from_slice bytes :=
    if bytes = Json.render sampleCacheMetadata.to_json then .ok sampleCacheMetadata
    else .error "EOF while parsing a value at line 1 column 0"

/-- A directory with nothing in it, before any process has published. -/
def emptyWorld : World := ⟨fun _ => none, fun _ => 0⟩

/-- The table holds the record that `publish` writes. -/
theorem sampleCache_metadata_of :
    sampleCache.metadata_of sampleCacheEnv sampleDigest .Cli0_2 sampleAot
      = sampleCacheMetadata := by
  have htag : sampleCache.authentication_tag sampleCacheEnv
      (sampleCache.identity sampleDigest .Cli0_2) sampleAot = sampleAotTag := by
    simp only [DiskCache.authentication_tag, sampleCacheEnv, sampleCacheCrypto, and_self, if_true]
  have hhex : hexEncode sampleAotTag
      = "85999ae5b90b375d9ca25fd8a4d20bf239c8ae5157e15cadc79e20b22f14cdc6" := by decide
  rw [DiskCache.metadata_of, htag, hhex]
  rfl

theorem sampleCacheEnv_decodes :
    sampleCacheEnv.from_slice (Json.render sampleCacheMetadata.to_json)
      = .ok sampleCacheMetadata := by
  simp only [sampleCacheEnv, if_true]

end WasmRuntime.Cache
