/-
What the two authentication tags are made of.

`cache.rs` authenticates an artifact with the MAC of `CACHE_DOMAIN`, the JSON text of the entry's
identity and the artifact, one behind the other and without a length. `checkpoint.rs` does so with
the MAC of `CHECKPOINT_DOMAIN` and the artifact it seals. Both keys are chosen outside and may be
the same 32 bytes.
-/
import WasmRuntime.DiskCache
import WasmRuntime.CheckpointCodec

set_option autoImplicit false

namespace WasmRuntime.Cache

open ByteCodec Json Codes Checkpoint

/-- What `DiskCache::authentication_tag` feeds to the MAC. -/
def tag_preimage (identity : CacheIdentity) (artifact : Bytes) : Bytes :=
  CACHE_DOMAIN ++ Json.render identity.to_json ++ artifact

theorem DiskCache.authentication_tag_eq (E : CacheEnv) (self : DiskCache)
    (identity : CacheIdentity) (artifact : Bytes) :
    self.authentication_tag E identity artifact
      = E.crypto.hmac_sha256 self.config.authentication_key.bytes
          (tag_preimage identity artifact) := rfl

/-! ## One identity, one text

The text of an identity is six members in a fixed order. Five of its values are strings, whose texts
say where they end; the sixth is a number, which does with the comma behind it. So the text ends
where its closing brace is, whatever the strings hold, and what follows is the artifact. -/

/-- What stands before a value that is not the first: the comma, the key and the colon. -/
def lead (key : String) : Bytes := [44] ++ (render (str key) ++ [58])

/-- The text of an identity, cut before and behind its values. The comma behind the number
belongs to it. -/
theorem render_identity (identity : CacheIdentity) (rest : Bytes) :
    render identity.to_json ++ rest =
      [123] ++ (render (str "format") ++ ([58] ++ (render (num identity.format.toNat) ++ [44] ++
      ((lead "component_digest").tail ++ (render (str identity.component_digest) ++
      (lead "profile" ++ (render (str identity.profile) ++
      (lead "wasmtime_version" ++ (render (str identity.wasmtime_version) ++
      (lead "target" ++ (render (str identity.target) ++
      (lead "compiler_profile" ++ (render (str identity.compiler_profile) ++
      ([125] ++ rest)))))))))))))) := by
  simp only [CacheIdentity.to_json, obj, member, moreMembers, lead, render_append, render_cons,
    render_nil, List.append_assoc, List.append_nil, List.nil_append, List.cons_append,
    List.tail_cons]

/-- The text of an identity says where it ends. -/
theorem selfDelimiting_identity :
    SelfDelimiting Set.univ (fun identity : CacheIdentity => render identity.to_json) := by
  rintro ⟨format, digest, profile, version, target, compiler⟩ -
    ⟨format', digest', profile', version', target', compiler'⟩ - s t h
  have hstr : ∀ a b : String, ∀ s t, render (str a) ++ s = render (str b) ++ t → a = b ∧ s = t :=
    fun a b => selfDelimiting_str a trivial b trivial
  have hnum := selfDelimiting_num format.toNat trivial format'.toNat trivial
  simp only [render_identity] at h
  -- One value after the other; what stands between them is the same on both sides.
  have h := List.append_cancel_left (List.append_cancel_left (List.append_cancel_left h))
  obtain ⟨hformat, h⟩ := hnum _ _ h
  obtain ⟨hdigest, h⟩ := hstr _ _ _ _ (List.append_cancel_left h)
  obtain ⟨hprofile, h⟩ := hstr _ _ _ _ (List.append_cancel_left h)
  obtain ⟨hversion, h⟩ := hstr _ _ _ _ (List.append_cancel_left h)
  obtain ⟨htarget, h⟩ := hstr _ _ _ _ (List.append_cancel_left h)
  obtain ⟨hcompiler, h⟩ := hstr _ _ _ _ (List.append_cancel_left h)
  rw [UInt8.toNat_inj.mp hformat, hdigest, hprofile, hversion, htarget, hcompiler]
  exact ⟨rfl, List.append_cancel_left h⟩

/-- What the MAC of an entry covers determines identity and artifact. -/
theorem tag_preimage_inj {identity identity' : CacheIdentity} {artifact artifact' : Bytes}
    (h : tag_preimage identity artifact = tag_preimage identity' artifact') :
    identity = identity' ∧ artifact = artifact' := by
  unfold tag_preimage at h
  rw [List.append_assoc, List.append_assoc] at h
  exact selfDelimiting_identity _ trivial _ trivial _ _ (List.append_cancel_left h)

/-! ## Two purposes

The two domains differ before either of them ends, and so do their preimages. -/

/-- The domains differ in their first bytes, so that nothing can follow them that makes up for
it. -/
theorem domains_differ (a b : Bytes) : CACHE_DOMAIN ++ a ≠ CHECKPOINT_DOMAIN ++ b := by
  intro h
  have htake := congrArg (List.take 22) h
  have hcache : 22 ≤ CACHE_DOMAIN.length := by decide
  have hcheckpoint : 22 ≤ CHECKPOINT_DOMAIN.length := by decide
  rw [List.take_append_of_le_length hcache, List.take_append_of_le_length hcheckpoint] at htake
  exact absurd htake (by decide)

/-- What the MAC of a cache entry covers determines the identity and the artifact. It is never
what the MAC of a checkpoint covers, and if the keys are the same, then a tag of the one kind is
none of the other unless the MAC takes the two given strings to one tag. -/
theorem tag_preimage_unambiguous (E : CacheEnv) (self : DiskCache) (codec : WasixCheckpointCodec)
    (identity identity' : CacheIdentity) (artifact artifact' metadata journal : Bytes) :
    (tag_preimage identity artifact = tag_preimage identity' artifact' →
      identity = identity' ∧ artifact = artifact') ∧
    tag_preimage identity artifact ≠
      CHECKPOINT_DOMAIN ++ WasixCheckpointCodec.authenticated metadata journal ∧
    (self.config.authentication_key.bytes = codec.authentication_key.bytes →
      (E.crypto.hmac_sha256 codec.authentication_key.bytes (tag_preimage identity artifact)
          = E.crypto.hmac_sha256 codec.authentication_key.bytes
            (CHECKPOINT_DOMAIN ++ WasixCheckpointCodec.authenticated metadata journal) →
        tag_preimage identity artifact
          = CHECKPOINT_DOMAIN ++ WasixCheckpointCodec.authenticated metadata journal) →
      (codec.authentication_tag (WasixCheckpointCodec.authenticated metadata journal)).verify_slice
          E.crypto (self.authentication_tag E identity artifact) = false) := by
  have hdiffer : tag_preimage identity artifact ≠
      CHECKPOINT_DOMAIN ++ WasixCheckpointCodec.authenticated metadata journal := by
    unfold tag_preimage
    rw [List.append_assoc]
    exact domains_differ _ _
  refine ⟨tag_preimage_inj, hdiffer, fun hkey hseparates => ?_⟩
  -- Both tags are made with one key, so equal tags would be those of equal texts.
  rw [HmacSha256.verify_slice, beq_eq_false_iff_ne, self.authentication_tag_eq, hkey]
  exact fun h => hdiffer (hseparates h)

/-- A codec with the key of the cache of the example. -/
def sampleSameKeyCodec : WasixCheckpointCodec :=
  .new ⟨sampleCache.config.authentication_key.bytes,
    sampleCache.config.authentication_key.length_eq⟩

/-- The tag of the entry of the example does not open the checkpoint of the example under the same
key. -/
theorem tag_preimage_unambiguous_same_key :
    (sampleSameKeyCodec.authentication_tag
        (WasixCheckpointCodec.authenticated sampleText sampleJournal)).verify_slice
      sampleCacheCrypto (sampleCache.authentication_tag sampleCacheEnv
        (sampleCache.identity sampleDigest .Cli0_2) sampleAot) = false := by
  obtain ⟨-, hdiffer, hverify⟩ := tag_preimage_unambiguous sampleCacheEnv sampleCache
    sampleSameKeyCodec (sampleCache.identity sampleDigest .Cli0_2)
    (sampleCache.identity sampleDigest .Cli0_2) sampleAot sampleAot sampleText
    sampleJournal
  refine hverify rfl fun h => ?_
  -- The MAC of the example takes one string to the tag and every other to zero.
  have htag : sampleCacheCrypto.hmac_sha256 sampleSameKeyCodec.authentication_key.bytes
      (tag_preimage (sampleCache.identity sampleDigest .Cli0_2) sampleAot) = sampleAotTag := by
    simp only [sampleCacheCrypto, sampleSameKeyCodec, WasixCheckpointCodec.new, tag_preimage,
      and_self, if_true]
  have hother : sampleCacheCrypto.hmac_sha256 sampleSameKeyCodec.authentication_key.bytes
      (CHECKPOINT_DOMAIN ++ WasixCheckpointCodec.authenticated sampleText sampleJournal)
        = be 32 0 := by
    simp only [sampleCacheCrypto]
    rw [if_neg]
    rintro ⟨-, hpreimage⟩
    exact hdiffer hpreimage.symm
  have hsame : sampleAotTag = be 32 0 := htag.symm.trans (h.trans hother)
  exact absurd hsame (by decide)

end WasmRuntime.Cache
