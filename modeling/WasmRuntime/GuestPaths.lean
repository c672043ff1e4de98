/-
The immutable guest paths of a manifest, segment by segment.

`validate_sorted_guest_paths` works on texts. A path is searched for what it may not contain, and
one path is held against the paths that come after it in the list, by the question whether their
texts begin with its text and a slash. `immutable_accepted_iff` says of every list of texts what
makes it acceptable, in words that know nothing of the search.
-/
import WasmRuntime.Environment
import WasmRuntime.Segments

set_option autoImplicit false

namespace WasmRuntime.Environment

open ByteCodec Segments Exec

/-! ## What a list of mount points should be

In segments: canonical paths in increasing order, of which none is above another. -/

/-- Letters, digits, and any of `._+-`. -/
def PathByte (byte : UInt8) : Prop :=
  (48 ≤ byte ∧ byte ≤ 57) ∨ (65 ≤ byte ∧ byte ≤ 90) ∨ (97 ≤ byte ∧ byte ≤ 122) ∨
    byte ∈ utf8 "._+-"

/-- A segment has at least one byte, and is neither `.` nor `..`. -/
structure Segment (segment : Bytes) : Prop where
  nonempty : segment ≠ []
  here : segment ≠ utf8 "."
  up : segment ≠ utf8 ".."
  bytes : ∀ byte ∈ segment, PathByte byte

/-- A canonical absolute path: one or more segments, each behind a slash. -/
structure GuestPath (path : Bytes) : Prop where
  segments : ∃ segments, segments ≠ [] ∧ (∀ segment ∈ segments, Segment segment) ∧
    path = render 47 segments
  short : path.length ≤ MAX_TOKEN_BYTES

/-- Segment by segment, neither path is the other or an ancestor of it. -/
def Apart (p q : Bytes) : Prop :=
  ¬ split 47 p <+: split 47 q ∧ ¬ split 47 q <+: split 47 p

/-- A list of mount points. -/
structure Mounts (paths : List Bytes) : Prop where
  few : paths.length ≤ MAX_LIST_ENTRIES
  canonical : ∀ path ∈ paths, GuestPath path
  increasing : paths.Pairwise (· < ·)
  apart : paths.Pairwise Apart
  writable : ∀ path ∈ paths, Apart path (utf8 "/tmp") ∧ Apart path (utf8 "/work")

/-! ## One path

The searches for a slash at the end, for two in a row and for a backslash say nothing that the
search through the segments does not say. -/

theorem contains_iff_isInfix (pattern : Bytes) (text : Bytes) :
    contains pattern text = true ↔ pattern <:+: text := by
  induction text with
  | nil =>
    rw [contains, List.isEmpty_iff, List.infix_nil]
  | cons byte rest ih =>
    rw [contains, Bool.or_eq_true, ih, List.isPrefixOf_iff_prefix, List.infix_cons_iff]

/-- The source's test of a byte. -/
theorem pathByte_iff (byte : UInt8) :
    (isAlphanumeric byte || (utf8 "._-+").contains byte) = true ↔ PathByte byte := by
  have hpunctuation : (utf8 "._-+").contains byte = true ↔ byte ∈ utf8 "._+-" := by
    have hleft : utf8 "._-+" = [46, 95, 45, 43] := by decide
    have hright : utf8 "._+-" = [46, 95, 43, 45] := by decide
    rw [hleft, hright, List.contains_iff_mem]
    simp only [List.mem_cons, List.not_mem_nil, or_false]
    tauto
  unfold PathByte isAlphanumeric
  rw [Bool.or_eq_true, hpunctuation]
  simp only [Bool.or_eq_true, Bool.and_eq_true, decide_eq_true_eq]
  tauto

/-- The source's test of a segment. -/
theorem badSegment_eq_false {segment : Bytes} : badSegment segment = false ↔ Segment segment := by
  unfold badSegment
  simp only [Bool.or_eq_false_iff, List.isEmpty_eq_false_iff, beq_eq_false_iff_ne, ne_eq,
    Bool.not_eq_false', List.all_eq_true, pathByte_iff]
  constructor
  · rintro ⟨⟨⟨hnonempty, hhere⟩, hup⟩, hbytes⟩
    exact ⟨hnonempty, hhere, hup, hbytes⟩
  · rintro ⟨hnonempty, hhere, hup, hbytes⟩
    exact ⟨⟨⟨hnonempty, hhere⟩, hup⟩, hbytes⟩

theorem PathByte.ne_slash {byte : UInt8} (h : PathByte byte) : byte ≠ 47 := by
  rintro rfl
  revert h
  unfold PathByte
  decide

theorem PathByte.ne_backslash {byte : UInt8} (h : PathByte byte) : byte ≠ 92 := by
  rintro rfl
  revert h
  unfold PathByte
  decide

variable {segments paths : List Bytes} {path : Bytes}

theorem Segment.free (h : ∀ segment ∈ segments, Segment segment) : Free 47 segments :=
  fun segment hmem hslash => ((h segment hmem).bytes 47 hslash).ne_slash rfl

/-- Cut at its slashes, the text of canonical segments gives them back. -/
theorem split_of_segments (h : ∀ segment ∈ segments, Segment segment) :
    split 47 (render 47 segments) = segments :=
  split_render (Segment.free h)

/-- The text of canonical segments has no slash at its end, no two in a row, and no backslash. -/
theorem render_clean (h : ∀ segment ∈ segments, Segment segment) :
    (utf8 "/").isSuffixOf (render 47 segments) = false ∧
      contains (utf8 "//") (render 47 segments) = false ∧
      contains (utf8 "\\") (render 47 segments) = false := by
  have hslash : utf8 "/" = [47] := by decide
  have hslashes : utf8 "//" = [47, 47] := by decide
  have hbackslash : utf8 "\\" = [92] := by decide
  -- A slash at the end or next to another would make an empty segment.
  have hnil : [] ∉ split 47 (render 47 segments) := by
    rw [split_of_segments h]
    intro hmem
    exact (h [] hmem).nonempty rfl
  refine ⟨?_, ?_, ?_⟩
  · apply Bool.eq_false_of_not_eq_true
    rw [hslash, List.isSuffixOf_iff_suffix]
    intro hsuffix
    exact hnil (nil_mem_of_last hsuffix)
  · apply Bool.eq_false_of_not_eq_true
    rw [hslashes, contains_iff_isInfix]
    intro hfound
    exact hnil (nil_mem_of_double hfound)
  · apply Bool.eq_false_of_not_eq_true
    rw [hbackslash, contains_iff_isInfix]
    intro hfound
    have hmem : (92 : UInt8) ∈ render 47 segments := hfound.subset List.mem_cons_self
    obtain ⟨segment, hsegment, hbyte⟩ := List.mem_flatMap.mp hmem
    rcases List.mem_cons.mp hbyte with heq | hbyte
    · exact absurd heq (by decide)
    · exact ((h segment hsegment).bytes 92 hbyte).ne_backslash rfl

/-- `validate_guest_path` accepts the canonical paths. -/
theorem validate_guest_path_eq_ok {label value : String} :
    validate_guest_path label value = .ok () ↔ GuestPath (utf8 value) := by
  have hslash : utf8 "/" = [47] := by decide
  unfold validate_guest_path
  rw [reject_eq_ok]
  simp only [Bool.or_eq_false_iff, decide_eq_false_iff_not, not_lt, Bool.not_eq_false',
    List.isPrefixOf_iff_prefix, List.any_eq_false, Bool.not_eq_true, badSegment_eq_false]
  constructor
  · rintro ⟨⟨⟨⟨⟨⟨hlong, hshort⟩, hstart⟩, -⟩, -⟩, -⟩, hsegments⟩
    rw [hslash] at hstart
    -- An absolute path is its segments joined again.
    have hrender := render_split hstart
    refine ⟨⟨split 47 (utf8 value), ?_, hsegments, hrender.symm⟩, hshort⟩
    intro hnone
    rw [hnone] at hrender
    rw [← hrender] at hlong
    exact absurd hlong (by decide)
  · rintro ⟨⟨segments, hsome, hsegments, hpath⟩, hshort⟩
    -- Good segments leave nothing for the checks on the whole path to find.
    obtain ⟨hsuffix, hdouble, hback⟩ := render_clean hsegments
    have hsplit := split_of_segments hsegments
    rw [hpath] at hshort ⊢
    refine ⟨⟨⟨⟨⟨⟨?_, hshort⟩, ?_⟩, hsuffix⟩, hdouble⟩, hback⟩, ?_⟩
    · cases segments with
      | nil => exact absurd rfl hsome
      | cons first rest =>
        have hfirst := (hsegments first List.mem_cons_self).nonempty
        have hlength := List.length_pos_of_ne_nil hfirst
        rw [render_cons, List.length_cons, List.length_append]
        omega
    · cases segments with
      | nil => exact absurd rfl hsome
      | cons first rest =>
        rw [hslash, render_cons]
        exact ⟨_, rfl⟩
    · intro segment hmem
      have hmem' : segment ∈ split 47 (render 47 segments) := hmem
      rw [hsplit] at hmem'
      exact hsegments segment hmem'

/-! ## The list

A text that begins with another and a slash is, by its segments, below it. And a path never comes
before an ancestor of it, although `-`, `.` and `+` are smaller than a slash: the ancestor's text is
a beginning of its own, and so smaller. -/

/-- The check is for strictly increasing paths. -/
theorem unsorted_eq_false : unsorted paths = false ↔ paths.Pairwise (· < ·) := by
  have hchain : unsorted paths = false ↔ paths.IsChain (· < ·) := by
    fun_induction unsorted paths with
    | case1 first second rest ih =>
      rw [Bool.or_eq_false_iff, decide_eq_false_iff_not, ih, List.isChain_cons_cons, List.not_le]
    | case2 paths hshort =>
      cases paths with
      | nil => simp
      | cons first rest =>
        cases rest with
        | nil => simp
        | cons second rest => exact absurd rfl (hshort first second rest)
  rw [hchain, List.isChain_iff_pairwise]

/-- No path is under another. -/
theorem overlapping_eq_false :
    overlapping paths = false ↔
      paths.Pairwise fun ancestor candidate => ¬ ancestor ++ utf8 "/" <+: candidate := by
  induction paths with
  | nil => simp [overlapping]
  | cons ancestor rest ih =>
    rw [overlapping, Bool.or_eq_false_iff, ih, List.pairwise_cons, List.any_eq_false]
    simp only [List.isPrefixOf_iff_prefix]

/-- A path with its segments. -/
theorem GuestPath.render_split (h : GuestPath path) :
    render 47 (split 47 path) = path ∧ Free 47 (split 47 path) := by
  obtain ⟨segments, -, hsegments, rfl⟩ := h.segments
  rw [split_of_segments hsegments]
  exact ⟨rfl, Segment.free hsegments⟩

/-- The source's question, and the answer in segments. -/
theorem GuestPath.below_iff {ancestor : Bytes} (ha : GuestPath ancestor) (hp : GuestPath path) :
    ancestor ++ utf8 "/" <+: path ↔ split 47 ancestor <+: split 47 path ∧ ancestor ≠ path := by
  obtain ⟨hrender, hfree⟩ := ha.render_split
  obtain ⟨hrender', hfree'⟩ := hp.render_split
  have hslash : utf8 "/" = [47] := by decide
  have hne : split 47 ancestor ≠ split 47 path ↔ ancestor ≠ path := by
    rw [ne_eq, ne_eq, not_iff_not]
    constructor
    · intro h
      rw [← hrender, h, hrender']
    · exact congrArg _
  have hiff := append_isPrefix_render_iff hfree hfree'
  rw [hrender, hrender', ← hslash, hne] at hiff
  exact hiff

/-- An ancestor has the smaller text. -/
theorem GuestPath.lt_of_isPrefix {ancestor : Bytes} (ha : GuestPath ancestor) (hp : GuestPath path)
    (h : split 47 ancestor <+: split 47 path) (hne : ancestor ≠ path) : ancestor < path := by
  obtain ⟨rest, hrest⟩ := (ha.below_iff hp).mpr ⟨h, hne⟩
  have hstart : ancestor <+: path := ⟨utf8 "/" ++ rest, by rw [← List.append_assoc, hrest]⟩
  exact Std.lt_of_le_of_ne hstart.le hne

/-- In an increasing list of paths it is enough to hold each against those behind it. -/
theorem overlapping_eq_false_iff_apart (hpaths : ∀ path ∈ paths, GuestPath path)
    (hincreasing : paths.Pairwise (· < ·)) : overlapping paths = false ↔ paths.Pairwise Apart := by
  rw [overlapping_eq_false]
  constructor
  · intro hbelow
    refine (hincreasing.and hbelow).imp_of_mem ?_
    intro p q hp hq ⟨hlt, hnot⟩
    have hne : p ≠ q := fun heq => List.lt_irrefl q (heq ▸ hlt)
    refine ⟨fun h => hnot (((hpaths p hp).below_iff (hpaths q hq)).mpr ⟨h, hne⟩), ?_⟩
    intro h
    have hgt := (hpaths q hq).lt_of_isPrefix (hpaths p hp) h hne.symm
    exact List.lt_asymm hlt hgt
  · intro hapart
    refine hapart.imp_of_mem ?_
    intro p q hp hq hpq hstart
    exact hpq.1 (((hpaths p hp).below_iff (hpaths q hq)).mp hstart).1

/-! ## The writable paths

The source names `/tmp` and `/work` and compares texts once more. -/

theorem split_ne_nil (h : GuestPath path) : split 47 path ≠ [] := by
  obtain ⟨segments, hsome, hsegments, rfl⟩ := h.segments
  rw [split_of_segments hsegments]
  exact hsome

/-- A path has nothing above one of a single segment but itself. -/
theorem apart_single {root : Bytes} (hp : GuestPath path) (hr : GuestPath root)
    (hsingle : (split 47 root).length = 1) :
    Apart path root ↔ path ≠ root ∧ ¬ root ++ utf8 "/" <+: path := by
  have habove : split 47 path <+: split 47 root → path = root := by
    intro h
    have hlength := h.length_le
    have hpos := List.length_pos_of_ne_nil (split_ne_nil hp)
    have hsame := h.eq_of_length (by omega)
    rw [← hp.render_split.1, hsame, hr.render_split.1]
  constructor
  · rintro ⟨hup, hdown⟩
    refine ⟨?_, fun h => hdown ((hr.below_iff hp).mp h).1⟩
    rintro rfl
    exact hup (List.prefix_refl _)
  · rintro ⟨hne, hbelow⟩
    refine ⟨fun h => hne (habove h), fun h => hbelow ((hr.below_iff hp).mpr ⟨h, hne.symm⟩)⟩

theorem guestPath_tmp : GuestPath (utf8 "/tmp") := by
  have h : validate_guest_path "" "/tmp" = .ok () := by decide
  exact validate_guest_path_eq_ok.mp h

theorem guestPath_work : GuestPath (utf8 "/work") := by
  have h : validate_guest_path "" "/work" = .ok () := by decide
  exact validate_guest_path_eq_ok.mp h

/-- The source's test against the two writable paths. -/
theorem overlaps_writable_eq_false (hp : GuestPath path) :
    EnvironmentManifest.overlaps_writable path = false ↔
      Apart path (utf8 "/tmp") ∧ Apart path (utf8 "/work") := by
  have htmp : utf8 "/tmp/" = utf8 "/tmp" ++ utf8 "/" := by decide
  have hwork : utf8 "/work/" = utf8 "/work" ++ utf8 "/" := by decide
  have hnot : ∀ w : Bytes, w.isPrefixOf path = false ↔ ¬ w <+: path := by
    intro w
    rw [← List.isPrefixOf_iff_prefix, Bool.not_eq_true]
  rw [apart_single hp guestPath_tmp (by decide), apart_single hp guestPath_work (by decide)]
  unfold EnvironmentManifest.overlaps_writable
  simp only [Bool.or_eq_false_iff, beq_eq_false_iff_ne, hnot, htmp, hwork, and_assoc]

/-! ## The manifest

The two checks among all others of `validate_identity_fields`. -/

variable {T : Target}

theorem forM_eq_ok {α : Type} {f : α → Exec Error Unit} {l : List α} :
    l.forM f = .ok () ↔ ∀ x ∈ l, f x = .ok () := by
  induction l with
  | nil => exact ⟨fun _ x hx => absurd hx List.not_mem_nil, fun _ => rfl⟩
  | cons x l ih =>
    have hcons : (x :: l).forM f = (f x >>= fun _ => l.forM f) := rfl
    rw [hcons, bind_eq_ok, List.forall_mem_cons, ← ih]
    exact ⟨fun ⟨_, hx, hl⟩ => ⟨hx, hl⟩, fun ⟨hx, hl⟩ => ⟨(), hx, hl⟩⟩

/-- `validate_sorted_guest_paths`, in segments. -/
theorem validate_sorted_guest_paths_eq_ok {label : String} {values : StrVec T} :
    validate_sorted_guest_paths label values = .ok () ↔
      values.items.length ≤ MAX_LIST_ENTRIES ∧
        (∀ path ∈ values.items.map Str.bytes, GuestPath path) ∧
        (values.items.map Str.bytes).Pairwise (· < ·) ∧
        (values.items.map Str.bytes).Pairwise Apart := by
  have helements : (values.items.forM fun value => validate_guest_path label value.value) = .ok () ↔
      ∀ path ∈ values.items.map Str.bytes, GuestPath path := by
    rw [forM_eq_ok, List.forall_mem_map]
    simp only [validate_guest_path_eq_ok]
    rfl
  unfold validate_sorted_guest_paths validate_sorted
  simp only [bind_eq_ok, reject_eq_ok, decide_eq_false_iff_not, gt_iff_lt, not_lt,
    helements, unsorted_eq_false, exists_and_left, exists_const, and_assoc]
  constructor
  · rintro ⟨hfew, hpaths, hincreasing, hoverlap⟩
    exact ⟨hfew, hpaths, hincreasing,
      (overlapping_eq_false_iff_apart hpaths hincreasing).mp hoverlap⟩
  · rintro ⟨hfew, hpaths, hincreasing, hapart⟩
    exact ⟨hfew, hpaths, hincreasing,
      (overlapping_eq_false_iff_apart hpaths hincreasing).mpr hapart⟩

/-- A step without a value, in front of the others. -/
theorem bind_unit_eq_ok {x : Exec Error Unit} {f : Unit → Exec Error Unit} :
    (x >>= f) = .ok () ↔ x = .ok () ∧ f () = .ok () := by
  rw [bind_eq_ok]
  exact ⟨fun ⟨_, hx, hf⟩ => ⟨hx, hf⟩, fun ⟨hx, hf⟩ => ⟨(), hx, hf⟩⟩

namespace EnvironmentManifest

/-- The manifest with other immutable paths. -/
def with_immutable (m : EnvironmentManifest T) (paths : StrVec T) : EnvironmentManifest T :=
  { m with filesystem := { m.filesystem with immutable := paths } }

/-- No paths at all. -/
def no_paths : StrVec T := ⟨[], Nat.zero_le _⟩

/-- What `validate_identity_fields` accepts as immutable paths, when there is nothing else to
object to: the manifest without them is accepted, and with them it is not too long. -/
theorem immutable_accepted_iff (E : ManifestEnv T) (m : EnvironmentManifest T) (paths : StrVec T)
    (hothers : (m.with_immutable no_paths).validate_identity_fields E = .ok ())
    (hsize : Json.size (m.with_immutable paths).round_trip.to_json ≤ MAX_MANIFEST_BYTES) :
    (m.with_immutable paths).validate_identity_fields E = .ok () ↔
      Mounts (paths.items.map Str.bytes) := by
  unfold validate_identity_fields at hothers ⊢
  simp only [bind_unit_eq_ok] at hothers ⊢
  -- Three checks read the paths: their order, the overlap with the writable ones and the size.
  obtain ⟨hschema, hprofile, hformat, hpath, hsha, hname, hversion, himplementation, htoolchain,
    hsource, hlock, hfeatures, hdefault, havailable, hcatalog, -, hwritable, -, -⟩ := hothers
  constructor
  · rintro ⟨-, -, -, -, -, -, -, -, -, -, -, -, -, -, -, hpaths, -, hoverlap, -⟩
    obtain ⟨hfew, hcanonical, hincreasing, hapart⟩ := validate_sorted_guest_paths_eq_ok.mp hpaths
    rw [reject_eq_ok, List.any_eq_false] at hoverlap
    refine ⟨?_, hcanonical, hincreasing, hapart, ?_⟩
    · rw [List.length_map]
      exact hfew
    · intro path hmem
      have hclear := Bool.eq_false_of_not_eq_true (hoverlap path hmem)
      exact (overlaps_writable_eq_false (hcanonical path hmem)).mp hclear
  · rintro ⟨hfew, hcanonical, hincreasing, hapart, hclear⟩
    rw [List.length_map] at hfew
    have hpaths : validate_sorted_guest_paths "immutable guest paths" paths = .ok () :=
      validate_sorted_guest_paths_eq_ok.mpr ⟨hfew, hcanonical, hincreasing, hapart⟩
    refine ⟨hschema, hprofile, hformat, hpath, hsha, hname, hversion, himplementation, htoolchain,
      hsource, hlock, hfeatures, hdefault, havailable, hcatalog, hpaths, hwritable, ?_, ?_⟩
    · rw [reject_eq_ok, List.any_eq_false]
      intro path hmem
      rw [Bool.not_eq_true]
      exact (overlaps_writable_eq_false (hcanonical path hmem)).mpr (hclear path hmem)
    · rw [reject_eq_ok, decide_eq_false_iff_not, gt_iff_lt, not_lt]
      exact hsize

/-- `/usr-local` comes before `/usr/lib`, and neither is below the other. -/
theorem immutable_accepted_hyphen : Mounts [utf8 "/usr-local", utf8 "/usr/lib"] := by
  refine (immutable_accepted_iff sampleManifestEnv sampleManifest
    (samplePair ⟨"/usr-local", by decide⟩ ⟨"/usr/lib", by decide⟩) ?_ ?_).mp ?_
  · decide +kernel
  · decide +kernel
  · decide +kernel

end EnvironmentManifest

end WasmRuntime.Environment
