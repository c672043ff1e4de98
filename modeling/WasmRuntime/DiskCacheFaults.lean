/-
`DiskCache::publish` when an operation fails half way.

The operations guide says that after a failed publish a fresh runtime compiles again because there
is no durable cache hit. `load_after_failed_publish_iff` says when that is so.
`publish_failure_blocks_entry` is a disk that fills up between the two files.
-/
import WasmRuntime.DiskCache

set_option autoImplicit false

namespace WasmRuntime.Cache

open ByteCodec Prog Function

/-! ## Fault plans

A plan says which of the operations fail, by their number, and how. -/

/-- The disk when the operations that `plan` lists fail; the state counts them. -/
def faulty (plan : ℕ → Option IoFault) (s : World × ℕ) : (op : DiskOp) → op.Answer × (World × ℕ)
  | .fs op =>
    match plan s.2 with
    | none => ((op.run s.1.dir).1, ({ s.1 with dir := (op.run s.1.dir).2 }, s.2 + 1))
    | some fault =>
      ((FsOp.faulted s.1.dir fault op).1,
        ({ s.1 with dir := (FsOp.faulted s.1.dir fault op).2 }, s.2 + 1))
  | .fetch_add pid =>
    ((DiskOp.run s.1 (.fetch_add pid)).1, ((DiskOp.run s.1 (.fetch_add pid)).2, s.2))

/-! ## `atomic_publish` under a plan

Three operations that can fail, each with what it leaves behind. -/

section AtomicPublish

variable {plan : ℕ → Option IoFault} {pid : UInt32} {path q : String} {bytes : Bytes} {w : World}
  {n : ℕ} {fault : IoFault}

/-- After the sequence number, three operations on one temporary name. -/
theorem interp_atomic_publish :
    interp (faulty plan) (atomic_publish pid path bytes) (w, n)
      = interp (faulty plan) (do
          write (with_extension path ("tmp-" ++ temp_tag pid w)) bytes
          set_private_file (with_extension path ("tmp-" ++ temp_tag pid w))
          rename (with_extension path ("tmp-" ++ temp_tag pid w)) path : DiskM Unit)
        (w.bumped pid, n) := rfl

theorem interp_write_ok (h : plan n = none) :
    interp (faulty plan) (write q bytes) (w, n)
      = (.ok (), ({ w with dir := update w.dir q (some bytes) }, n + 1)) := by
  simp only [write, Fallible.orElse, fs, Prog.bind, interp, faulty, h]
  rfl

theorem interp_write_error (q : String) (bytes : Bytes) (w : World) (h : plan n = some fault) :
    ∃ dir', interp (faulty plan) (write q bytes) (w, n)
        = (.error (.Io fault.message), ({ w with dir := dir' }, n + 1)) ∧
      ∀ name, name ≠ q → dir' name = w.dir name := by
  refine ⟨(FsOp.faulted w.dir fault (.write q bytes)).2, ?_, ?_⟩
  · simp only [write, Fallible.orElse, fs, Prog.bind, interp, faulty, h]
    rfl
  · intro name hname
    rw [FsOp.faulted]
    cases fault.written with
    | none => rfl
    | some n => exact update_of_ne hname _ _

theorem interp_set_private_file_ok (h : plan n = none) (hq : w.dir q = some bytes) :
    interp (faulty plan) (set_private_file q) (w, n) = (.ok (), (w, n + 1)) := by
  simp only [set_private_file, Fallible.orElse, fs, Prog.bind, interp, faulty, h, FsOp.run, hq]

theorem interp_set_private_file_error (h : plan n = some fault) :
    interp (faulty plan) (set_private_file q) (w, n)
      = (.error (.Io fault.message), (w, n + 1)) := by
  simp only [set_private_file, Fallible.orElse, fs, Prog.bind, interp, faulty, h]
  rfl

theorem interp_rename_ok (h : plan n = none) (hq : w.dir q = some bytes) :
    interp (faulty plan) (rename q path) (w, n)
      = (.ok (), ({ w with dir := w.dir.renamed q path bytes }, n + 1)) := by
  simp only [rename, Fallible.orElse, fs, Prog.bind, interp, faulty, h, FsOp.run, hq]

theorem interp_rename_error (h : plan n = some fault) :
    interp (faulty plan) (rename q path) (w, n) = (.error (.Io fault.message), (w, n + 1)) := by
  simp only [rename, Fallible.orElse, fs, Prog.bind, interp, faulty, h]
  rfl

/-- With no fault planned for its three operations, `atomic_publish` publishes. -/
theorem atomic_publish_ok (h : ∀ k < 3, plan (n + k) = none) :
    interp (faulty plan) (atomic_publish pid path bytes) (w, n)
      = (.ok (), (published w pid path bytes, n + 3)) := by
  have h0 : plan n = none := h 0 (by omega)
  have h1 : plan (n + 1) = none := h 1 (by omega)
  have h2 : plan (n + 1 + 1) = none := h 2 (by omega)
  rw [interp_atomic_publish, interp_bind_ok (interp_write_ok h0),
    interp_bind_ok (interp_set_private_file_ok h1 (update_self _ _ _)),
    interp_rename_ok h2 (update_self _ _ _)]
  rfl

/-- With a fault planned for one of them it fails, and has touched its temporary only. -/
theorem atomic_publish_error (pid : UInt32) (path : String) (bytes : Bytes) (w : World)
    (h : ∃ k < 3, (plan (n + k)).isSome) :
    ∃ e s, interp (faulty plan) (atomic_publish pid path bytes) (w, n) = (.error e, s) ∧
      ∀ name, name ≠ with_extension path ("tmp-" ++ temp_tag pid w) →
        s.1.dir name = w.dir name := by
  rw [interp_atomic_publish]
  cases h0 : plan n with
  | some fault =>
    obtain ⟨dir', hrun, hframe⟩ := interp_write_error
      (with_extension path ("tmp-" ++ temp_tag pid w)) bytes (w.bumped pid) h0
    exact ⟨_, _, interp_bind_error hrun, hframe⟩
  | none =>
    rw [interp_bind_ok (interp_write_ok h0)]
    have hframe : ∀ name, name ≠ with_extension path ("tmp-" ++ temp_tag pid w) →
        update w.dir (with_extension path ("tmp-" ++ temp_tag pid w)) (some bytes) name
          = w.dir name := fun name hname => update_of_ne hname _ _
    cases h1 : plan (n + 1) with
    | some fault => exact ⟨_, _, interp_bind_error (interp_set_private_file_error h1), hframe⟩
    | none =>
      rw [interp_bind_ok (interp_set_private_file_ok h1 (update_self _ _ _))]
      cases h2 : plan (n + 1 + 1) with
      | some fault => exact ⟨_, _, interp_rename_error h2, hframe⟩
      | none =>
        -- No operation is left that the plan could have meant.
        obtain ⟨k, hk, hsome⟩ := h
        have hk' : k = 0 ∨ k = 1 ∨ k = 2 := by omega
        rcases hk' with rfl | rfl | rfl
        · rw [Nat.add_zero, h0] at hsome
          cases hsome
        · rw [h1] at hsome
          cases hsome
        · rw [show n + 2 = n + 1 + 1 from rfl, h2] at hsome
          cases hsome

end AtomicPublish

/-! ## `publish` under a plan

Two runs of `atomic_publish`, and it stops at the first operation that fails. Up to the rename of
the artifact it leaves a temporary at most, which no `load` looks at. From then on the artifact is
in place and the metadata is not, and `load` takes the artifact for an entry: it goes on to read the
metadata and fails. -/

namespace DiskCache

variable {E : CacheEnv} {self : DiskCache} {d : Digest} {p : WasiProfile} {w : World}

/-- What `publish` does to the disk under a fault plan. -/
def publish_faulty (plan : ℕ → Option IoFault) (E : CacheEnv) (self : DiskCache) (pid : UInt32)
    (d : Digest) (p : WasiProfile) (artifact : Bytes) (w : World) :
    Except Error Unit × (World × ℕ) :=
  interp (faulty plan) (self.publish E pid d p artifact) (w, 0)

/-- Once a file of the entry exists `load` does not answer `Ok(None)` any more. -/
theorem load_entry_ne_none {h : World → (op : DiskOp) → op.Answer × World} :
    (interp h (self.load_entry E d p) w).1 ≠ .ok none := by
  rw [load_entry, paths_eq]
  -- Six steps may fail; what they lead up to is a value.
  refine interp_bind_ne fun metadata_bytes w₁ => ?_
  refine interp_bind_ne fun metadata w₂ => ?_
  refine interp_bind_ne fun _ w₃ => ?_
  refine interp_bind_ne fun _ w₄ => ?_
  refine interp_bind_ne fun artifact w₅ => ?_
  refine interp_bind_ne fun _ w₆ => ?_
  intro hnone
  cases hnone

/-- A miss is the absence of both files. -/
theorem load_now_none_iff :
    (self.load_now E d p w).1 = .ok none ↔
      w.dir (file_name d p .artifact) = none ∧ w.dir (file_name d p .metadata) = none := by
  constructor
  · intro hload
    by_contra hfiles
    rw [load_present (by tauto)] at hload
    exact load_entry_ne_none hload
  · rintro ⟨ha, hm⟩
    rw [load_absent ha hm]

/-- The two publications `publish` consists of, for an artifact of admissible size. -/
theorem publish_faulty_eq (E : CacheEnv) (self : DiskCache) (d : Digest) (p : WasiProfile)
    (w : World) (plan : ℕ → Option IoFault) (pid : UInt32) {artifact : Bytes}
    (hsize : ¬ artifact.length > self.config.max_entry_bytes) :
    self.publish_faulty plan E pid d p artifact w
      = interp (faulty plan) (do
          atomic_publish pid (file_name d p .artifact) artifact
          atomic_publish pid (file_name d p .metadata)
            (Json.render (self.metadata_of E d p artifact).to_json) : DiskM Unit) (w, 0) := by
  rw [publish_faulty, publish, paths_eq, decide_eq_false hsize, Fallible.reject_false_bind]

/-- A publication that fails before the artifact is in place leaves both names alone. -/
theorem publish_faulty_early {plan : ℕ → Option IoFault} {pid : UInt32} {artifact : Bytes}
    (h : artifact.length > self.config.max_entry_bytes ∨ ∃ k < 3, (plan k).isSome) :
    ∀ kind, kind = .artifact ∨ kind = .metadata →
      (self.publish_faulty plan E pid d p artifact w).2.1.dir (file_name d p kind)
        = w.dir (file_name d p kind) := by
  intro kind hkind
  by_cases hsize : artifact.length > self.config.max_entry_bytes
  · rw [publish_faulty, publish, decide_eq_true hsize, Fallible.reject_true_bind]
    rfl
  · have hplan : ∃ k < 3, (plan (0 + k)).isSome := by
      simpa only [Nat.zero_add] using h.resolve_left hsize
    obtain ⟨e, s, hrun, hframe⟩ := atomic_publish_error pid
      (file_name d p .artifact) artifact w hplan
    rw [publish_faulty_eq _ _ _ _ _ _ _ hsize, interp_bind_error hrun]
    apply hframe
    rw [artifact_with_extension]
    apply file_name_ne
    rcases hkind with rfl | rfl <;> exact nofun

/-- One that fails later leaves the artifact in place. -/
theorem publish_faulty_late {plan : ℕ → Option IoFault} {pid : UInt32} {artifact : Bytes}
    {e : Error} (hsize : ¬ artifact.length > self.config.max_entry_bytes)
    (hplan : ¬ ∃ k < 3, (plan k).isSome)
    (hfail : (self.publish_faulty plan E pid d p artifact w).1 = .error e) :
    (self.publish_faulty plan E pid d p artifact w).2.1.dir (file_name d p .artifact)
      = some artifact := by
  have hfirst : ∀ k < 3, plan (0 + k) = none := by
    intro k hk
    rw [Nat.zero_add]
    by_contra hne
    exact hplan ⟨k, hk, Option.isSome_iff_ne_none.mpr hne⟩
  rw [publish_faulty_eq _ _ _ _ _ _ _ hsize, interp_bind_ok (atomic_publish_ok hfirst)] at hfail ⊢
  by_cases hsecond : ∃ k < 3, (plan (0 + 3 + k)).isSome
  · obtain ⟨e', s, hrun, hframe⟩ := atomic_publish_error pid
      (file_name d p .metadata) (Json.render (self.metadata_of E d p artifact).to_json)
      (published w pid (file_name d p .artifact) artifact) hsecond
    rw [hrun, hframe]
    · exact published_dir_self
    · rw [metadata_with_extension]
      exact file_name_ne nofun
  · -- Nothing was planned at all: then `publish` did not fail.
    have hrest : ∀ k < 3, plan (0 + 3 + k) = none := by
      intro k hk
      by_contra hne
      exact hsecond ⟨k, hk, Option.isSome_iff_ne_none.mpr hne⟩
    rw [atomic_publish_ok hrest] at hfail
    cases hfail

/-- After a failed `publish` of an entry that was not there, `load` misses again exactly
when the artifact was too large or one of the three operations on the artifact failed. -/
theorem load_after_failed_publish_iff (plan : ℕ → Option IoFault) (E : CacheEnv)
    (self fresh : DiskCache) (pid : UInt32) (d : Digest) (p : WasiProfile) (artifact : Bytes)
    (w : World) (e : Error) (hmiss : (self.load_now E d p w).1 = .ok none)
    (hfail : (self.publish_faulty plan E pid d p artifact w).1 = .error e) :
    (fresh.load_now E d p (self.publish_faulty plan E pid d p artifact w).2.1).1 = .ok none ↔
      artifact.length > self.config.max_entry_bytes ∨ ∃ k < 3, (plan k).isSome := by
  obtain ⟨ha, hm⟩ := load_now_none_iff.mp hmiss
  rw [load_now_none_iff]
  constructor
  · rintro ⟨hnone, -⟩
    by_contra hlate
    obtain ⟨hsize, hplan⟩ := not_or.mp hlate
    rw [publish_faulty_late hsize hplan hfail] at hnone
    cases hnone
  · intro hearly
    rw [publish_faulty_early hearly _ (.inl rfl), publish_faulty_early hearly _ (.inr rfl)]
    exact ⟨ha, hm⟩

/-- The disk is full from the operation `k` on. -/
def diskFullAt (k : ℕ) (n : ℕ) : Option IoFault :=
  if n = k then some ⟨"No space left on device (os error 28)", some 0⟩ else none

/-- The disk fills up between the two files: `publish` fails, and what was a miss before
is an error from now on. -/
theorem publish_failure_blocks_entry :
    (sampleCache.load_now sampleCacheEnv sampleDigest .Cli0_2 emptyWorld).1 = .ok none ∧
    (sampleCache.publish_faulty (diskFullAt 3) sampleCacheEnv 1 sampleDigest .Cli0_2 sampleAot
      emptyWorld).1 = .error (.Io "No space left on device (os error 28)") ∧
    (sampleCache.load_now sampleCacheEnv sampleDigest .Cli0_2
      (sampleCache.publish_faulty (diskFullAt 3) sampleCacheEnv 1 sampleDigest .Cli0_2 sampleAot
        emptyWorld).2.1).1
      = .error (.Cache "metadata read failed: No such file or directory (os error 2)") := by
  have hsize : ¬ sampleAot.length > sampleCache.config.max_entry_bytes := by decide
  have hfirst : ∀ k < 3, diskFullAt 3 (0 + k) = none := by decide
  have hthird : diskFullAt 3 (0 + 3) = some ⟨"No space left on device (os error 28)", some 0⟩ := rfl
  -- The artifact is published; the write of the metadata's temporary fails.
  obtain ⟨dir', hwrite, hframe⟩ := interp_write_error
    (with_extension (file_name sampleDigest .Cli0_2 .metadata) ("tmp-" ++ temp_tag 1
      (published emptyWorld 1 (file_name sampleDigest .Cli0_2 .artifact) sampleAot)))
    (Json.render (sampleCache.metadata_of sampleCacheEnv sampleDigest .Cli0_2 sampleAot).to_json)
    ((published emptyWorld 1 (file_name sampleDigest .Cli0_2 .artifact) sampleAot).bumped 1) hthird
  have hrun := publish_faulty_eq sampleCacheEnv sampleCache sampleDigest .Cli0_2 emptyWorld
    (diskFullAt 3) 1 hsize
  rw [interp_bind_ok (atomic_publish_ok hfirst), interp_atomic_publish,
    interp_bind_error hwrite] at hrun
  have hartifact : dir' (file_name sampleDigest .Cli0_2 .artifact) = some sampleAot := by
    rw [hframe _ (by rw [metadata_with_extension]; exact file_name_ne nofun), World.bumped_dir]
    exact published_dir_self
  have hmetadata : dir' (file_name sampleDigest .Cli0_2 .metadata) = none := by
    rw [hframe _ (by rw [metadata_with_extension]; exact file_name_ne nofun), World.bumped_dir]
    refine published_dir_of_ne (file_name_ne nofun) ?_
    rw [artifact_with_extension]
    exact file_name_ne nofun
  refine ⟨congrArg Prod.fst (load_absent rfl rfl), by rw [hrun], ?_⟩
  rw [hrun]
  exact congrArg Prod.fst (load_half hartifact hmetadata)

/-- Had it filled up one file earlier, the next runtime would have compiled again. -/
theorem load_after_failed_publish_full :
    (sampleCache.load_now sampleCacheEnv sampleDigest .Cli0_2
      (sampleCache.publish_faulty (diskFullAt 0) sampleCacheEnv 1 sampleDigest .Cli0_2 sampleAot
        emptyWorld).2.1).1 = .ok none := by
  have hplan : ∃ k < 3, (diskFullAt 0 (0 + k)).isSome := ⟨0, by decide, by decide⟩
  obtain ⟨e, s, hrun, -⟩ := atomic_publish_error 1
    (file_name sampleDigest .Cli0_2 .artifact) sampleAot emptyWorld hplan
  have hfail : (sampleCache.publish_faulty (diskFullAt 0) sampleCacheEnv 1 sampleDigest .Cli0_2
      sampleAot emptyWorld).1 = .error e := by
    rw [publish_faulty_eq _ _ _ _ _ _ _ (by decide), interp_bind_error hrun]
  exact (load_after_failed_publish_iff (diskFullAt 0) sampleCacheEnv sampleCache sampleCache 1
    sampleDigest .Cli0_2 sampleAot emptyWorld e (congrArg Prod.fst (load_absent rfl rfl))
    hfail).mpr (.inr ⟨0, by decide, by decide⟩)

end DiskCache

end WasmRuntime.Cache
