/-
One directory of a file system: the operations `std::fs` offers on the files in it, with and without
faults, and the two `Path` methods that compute one file name from another.

A directory is a map from file names to contents. `FsOp.run` is what an operation does when nothing
goes wrong, and it is a function; a file that is not there is not a fault but an answer.
`FsOp.Fault` adds what may go wrong: any operation may fail, and a write that fails may have written
any initial part of its bytes, or not even opened the file. Renaming is atomic in both.
`FsOp.faulted` is the failure that a fault plan asks for, for runs that have to be functions too.
-/
import WasmRuntime.ByteCodec
import WasmRuntime.Prog

set_option autoImplicit false

namespace WasmRuntime

open ByteCodec Function

/-- The files of a directory. -/
abbrev Dir := String → Option Bytes

/-- Operations on the files of a directory. -/
inductive FsOp where
  | exists_ (path : String)
  | is_file (path : String)
  | read (path : String)
  | write (path : String) (bytes : Bytes)
  | set_permissions (path : String)
  | rename (src dst : String)
  deriving DecidableEq

/-- The answers; an `io::Error` is its message. -/
@[reducible]
def FsOp.Answer : FsOp → Type
  | .exists_ _ => Bool
  | .is_file _ => Bool
  | .read _ => Except String Bytes
  | .write _ _ => Except String Unit
  | .set_permissions _ => Except String Unit
  | .rename _ _ => Except String Unit

/-- The message of `ErrorKind::NotFound`. -/
def NOT_FOUND : String := "No such file or directory (os error 2)"

/-- The directory after a successful rename of `src`, which held `bytes`. -/
def Dir.renamed (d : Dir) (src dst : String) (bytes : Bytes) : Dir :=
  update (update d src none) dst (some bytes)

theorem Dir.renamed_dst (d : Dir) (src dst : String) (bytes : Bytes) :
    d.renamed src dst bytes dst = some bytes := update_self _ _ _

theorem Dir.renamed_src (d : Dir) {src dst : String} (bytes : Bytes) (h : src ≠ dst) :
    d.renamed src dst bytes src = none := by
  rw [Dir.renamed, update_of_ne h, update_self]

theorem Dir.renamed_of_ne (d : Dir) {src dst name : String} (bytes : Bytes) (hsrc : name ≠ src)
    (hdst : name ≠ dst) : d.renamed src dst bytes name = d name := by
  rw [Dir.renamed, update_of_ne hdst, update_of_ne hsrc]

/-- An operation when nothing goes wrong. -/
def FsOp.run (d : Dir) : (op : FsOp) → op.Answer × Dir
  | .exists_ path => ((d path).isSome, d)
  | .is_file path => ((d path).isSome, d)
  | .read path =>
    match d path with
    | some bytes => (.ok bytes, d)
    | none => (.error NOT_FOUND, d)
  | .write path bytes => (.ok (), update d path (some bytes))
  | .set_permissions path =>
    match d path with
    | some _ => (.ok (), d)
    | none => (.error NOT_FOUND, d)
  | .rename src dst =>
    match d src with
    | some bytes => (.ok (), d.renamed src dst bytes)
    | none => (.error NOT_FOUND, d)

/-- The operation reported no error. -/
def FsOp.ok : (op : FsOp) → op.Answer → Prop
  | .exists_ _, _ => True
  | .is_file _, _ => True
  | .read _, answer => ∃ bytes, answer = .ok bytes
  | .write _ _, answer => answer = .ok ()
  | .set_permissions _, answer => answer = .ok ()
  | .rename _ _, answer => answer = .ok ()

/-- The ways an operation may fail. A query that fails answers `false`. -/
inductive FsOp.Fault (d : Dir) : (op : FsOp) → op.Answer → Dir → Prop where
  | exists_ (path : String) : Fault d (.exists_ path) false d
  | is_file (path : String) : Fault d (.is_file path) false d
  | read (path message : String) : Fault d (.read path) (.error message) d
  | open_ (path : String) (bytes : Bytes) (message : String) :
      Fault d (.write path bytes) (.error message) d
  | write (path : String) (bytes : Bytes) (message : String) (n : ℕ) :
      Fault d (.write path bytes) (.error message) (update d path (some (bytes.take n)))
  | set_permissions (path message : String) : Fault d (.set_permissions path) (.error message) d
  | rename (src dst message : String) : Fault d (.rename src dst) (.error message) d

/-- What an operation does to each file, faults included: a file keeps its contents;
or it is the target of a write and holds an initial part of what was written; or it is
the source of a rename, and gone; or its target, and holds what the source held. -/
inductive FsOp.Effect (d : Dir) : (op : FsOp) → Dir → Prop where
  | same (op : FsOp) : Effect d op d
  | wrote (path : String) (bytes : Bytes) (n : ℕ) :
      Effect d (.write path bytes) (update d path (some (bytes.take n)))
  | renamed (src dst : String) (bytes : Bytes) (h : d src = some bytes) :
      Effect d (.rename src dst) (d.renamed src dst bytes)

/-- What an operation does is one of its effects. -/
theorem FsOp.run_effect (d : Dir) (op : FsOp) : op.Effect d (op.run d).2 := by
  cases op with
  | exists_ path => exact .same _
  | is_file path => exact .same _
  | read path =>
    rw [FsOp.run]
    cases d path <;> exact .same _
  | write path bytes =>
    have h := FsOp.Effect.wrote (d := d) path bytes bytes.length
    rwa [List.take_length] at h
  | set_permissions path =>
    rw [FsOp.run]
    cases d path <;> exact .same _
  | rename src dst =>
    rw [FsOp.run]
    cases h : d src with
    | none => exact .same _
    | some bytes => exact .renamed src dst bytes h

/-- So is what it does when it fails. -/
theorem FsOp.Fault.effect {d d' : Dir} {op : FsOp} {a : op.Answer} (h : op.Fault d a d') :
    op.Effect d d' := by
  cases h with
  | write path bytes message n => exact .wrote path bytes n
  | exists_ | is_file | read | open_ | set_permissions | rename => exact .same _

/-- A failure of one operation: its message and, for a write, how many bytes reached
the file if it was opened at all. -/
structure IoFault where
  message : String
  written : Option ℕ

/-- A file operation that fails. -/
def FsOp.faulted (d : Dir) (fault : IoFault) : (op : FsOp) → op.Answer × Dir
  | .exists_ _ => (false, d)
  | .is_file _ => (false, d)
  | .read _ => (.error fault.message, d)
  | .write path bytes =>
    (.error fault.message, match fault.written with
      | none => d
      | some n => update d path (some (bytes.take n)))
  | .set_permissions _ => (.error fault.message, d)
  | .rename _ _ => (.error fault.message, d)

/-- A planned fault is one of those a directory operation may have. -/
theorem FsOp.faulted_fault (d : Dir) (fault : IoFault) (op : FsOp) :
    op.Fault d (FsOp.faulted d fault op).1 (FsOp.faulted d fault op).2 := by
  cases op with
  | exists_ path => exact .exists_ path
  | is_file path => exact .is_file path
  | read path => exact .read path _
  | write path bytes =>
    rw [FsOp.faulted]
    cases fault.written with
    | none => exact .open_ path bytes _
    | some n => exact .write path bytes _ n
  | set_permissions path => exact .set_permissions path _
  | rename src dst => exact .rename src dst _

/-! ## File names

`with_extension` replaces what follows the last dot of a name. Two names built around one dot are
equal only when their halves are (`split_at_first`), which is all that is ever needed to keep the
files of a naming scheme apart. -/

/-- `Path::file_stem`: a name without its last dot and what follows; a name that has
no dot, or only a leading one, is its own stem. -/
def file_stem (name : List Char) : List Char :=
  match (name.reverse.dropWhile (· ≠ '.')) with
  | [] => name
  | _ :: rest => if rest = [] then name else rest.reverse

/-- `Path::with_extension`. -/
def with_extension (name extension : String) : String :=
  String.ofList (file_stem name.toList ++ '.' :: extension.toList)

theorem file_stem_dot {stem ext : List Char} (hstem : stem ≠ []) (hext : '.' ∉ ext) :
    file_stem (stem ++ '.' :: ext) = stem := by
  have hdrop : (stem ++ '.' :: ext).reverse.dropWhile (· ≠ '.') = '.' :: stem.reverse := by
    rw [List.reverse_append, List.reverse_cons, List.append_assoc,
      List.dropWhile_append_of_pos]
    · simp
    · intro c hc
      rw [decide_eq_true_eq]
      rintro rfl
      exact hext (List.mem_reverse.mp hc)
  rw [file_stem, hdrop]
  dsimp only
  rw [if_neg (by simpa using hstem), List.reverse_reverse]

theorem with_extension_dot {stem ext : String} (extension : String) (hstem : stem ≠ "")
    (hext : '.' ∉ ext.toList) :
    with_extension (stem ++ "." ++ ext) extension = stem ++ "." ++ extension := by
  have hlist : (stem ++ "." ++ ext).toList = stem.toList ++ '.' :: ext.toList := by
    rw [String.toList_append, String.toList_append, List.append_assoc]
    rfl
  have hne : stem.toList ≠ [] := fun h => hstem (String.toList_eq_nil_iff.mp h)
  rw [with_extension, hlist, file_stem_dot hne hext]
  apply String.toList_inj.mp
  rw [String.toList_ofList, String.toList_append, String.toList_append, List.append_assoc]
  rfl

/-- A text is split at the first of its dots, or of any other character, in one way. -/
theorem split_at_first {dot : Char} {a a' b b' : List Char} (ha : dot ∉ a) (ha' : dot ∉ a')
    (h : a ++ dot :: b = a' ++ dot :: b') : a = a' ∧ b = b' := by
  induction a generalizing a' with
  | nil =>
    cases a' with
    | nil => exact ⟨rfl, (List.cons.inj h).2⟩
    | cons c a' =>
      rw [List.nil_append, List.cons_append] at h
      exact absurd (List.mem_cons.mpr (.inl (List.cons.inj h).1)) ha'
  | cons c a ih =>
    cases a' with
    | nil =>
      rw [List.nil_append, List.cons_append] at h
      exact absurd (List.mem_cons.mpr (.inl (List.cons.inj h).1.symm)) ha
    | cons c' a' =>
      obtain ⟨rfl, htail⟩ := List.cons.inj h
      obtain ⟨rfl, rfl⟩ := ih (fun hc => ha (List.mem_cons_of_mem _ hc))
        (fun hc => ha' (List.mem_cons_of_mem _ hc)) htail
      exact ⟨rfl, rfl⟩

end WasmRuntime
