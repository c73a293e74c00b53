import TaroTria.Storage.ImageValidation

/-!
# What the signatures of an image let through

The signatures of JPEG and PNG are compared byte by byte. The two words of WebP are
compared as decoded text, which forgets the highest bit of each byte.
-/

namespace TaroTria

namespace Buffer

def JPEG_SIGNATURE : Buffer := [0xff, 0xd8, 0xff]

def PNG_SIGNATURE : Buffer := [0x89, 0x50, 0x4e, 0x47, 0x0d, 0x0a, 0x1a, 0x0a]

def RIFF : Buffer := [0x52, 0x49, 0x46, 0x46]

def WEBP : Buffer := [0x57, 0x45, 0x42, 0x50]

/-- `buffer.subarray(start, stop)`. -/
def slice (buffer : Buffer) (start stop : Nat) : Buffer := (buffer.drop start).take (stop - start)

/-- The signature of WebP, byte by byte. -/
structure IsWebp (buffer : Buffer) : Prop where
  length : 12 ≤ buffer.length
  riff : slice buffer 0 4 = RIFF
  webp : slice buffer 8 12 = WEBP

/-- The bytes of the two words read as the signature of WebP. -/
structure ReadsAsWebp (buffer : Buffer) : Prop where
  length : 12 ≤ buffer.length
  riff : asciiSlice buffer 0 4 = RIFF
  webp : asciiSlice buffer 8 12 = WEBP

/-- Each answer is given exactly on its signature. -/
structure SniffedExactly (buffer : Buffer) : Prop where
  jpeg : sniffImageMimeType buffer = some .jpeg ↔ JPEG_SIGNATURE <+: buffer
  png : sniffImageMimeType buffer = some .png ↔ PNG_SIGNATURE <+: buffer
  webp : sniffImageMimeType buffer = some .webp ↔ IsWebp buffer
  null : sniffImageMimeType buffer = none ↔
    ¬ JPEG_SIGNATURE <+: buffer ∧ ¬ PNG_SIGNATURE <+: buffer ∧ ¬ IsWebp buffer

variable {buffer : Buffer}

theorem jpeg_signature_iff : JPEG_SIGNATURE <+: buffer ↔ 3 ≤ buffer.length ∧
    buffer[0]? = some 0xff ∧ buffer[1]? = some 0xd8 ∧ buffer[2]? = some 0xff := by
  constructor
  · rintro ⟨rest, rfl⟩
    simp [JPEG_SIGNATURE]
  · rcases buffer with _ | ⟨b₀, _ | ⟨b₁, _ | ⟨b₂, rest⟩⟩⟩ <;>
      simp_all [JPEG_SIGNATURE, List.cons_prefix_cons]

theorem png_signature_iff : PNG_SIGNATURE <+: buffer ↔ 8 ≤ buffer.length ∧
    buffer[0]? = some 0x89 ∧ buffer[1]? = some 0x50 ∧ buffer[2]? = some 0x4e ∧
      buffer[3]? = some 0x47 ∧ buffer[4]? = some 0x0d ∧ buffer[5]? = some 0x0a ∧
      buffer[6]? = some 0x1a ∧ buffer[7]? = some 0x0a := by
  constructor
  · rintro ⟨rest, rfl⟩
    simp [PNG_SIGNATURE]
  · rintro ⟨-, h⟩
    refine List.prefix_iff_getElem?.mpr ?_
    rintro (_ | _ | _ | _ | _ | _ | _ | _ | i) hi
    all_goals simp [PNG_SIGNATURE, h] at hi ⊢
    omega

/-- The first byte of a buffer settles which signature it can have. -/
theorem not_jpeg_of_png (h : PNG_SIGNATURE <+: buffer) : ¬ JPEG_SIGNATURE <+: buffer := by
  obtain ⟨rest, rfl⟩ := h
  simp [JPEG_SIGNATURE, PNG_SIGNATURE, List.cons_prefix_cons]

theorem ReadsAsWebp.not_jpeg (h : ReadsAsWebp buffer) : ¬ JPEG_SIGNATURE <+: buffer := by
  rintro ⟨rest, rfl⟩
  have hriff := congrArg List.head? h.riff
  revert hriff
  simp [asciiSlice, JPEG_SIGNATURE, RIFF]
  decide

theorem ReadsAsWebp.not_png (h : ReadsAsWebp buffer) : ¬ PNG_SIGNATURE <+: buffer := by
  rintro ⟨rest, rfl⟩
  have hriff := congrArg List.head? h.riff
  revert hriff
  simp [asciiSlice, PNG_SIGNATURE, RIFF]
  decide

/-- The recogniser, by the signatures. -/
theorem sniffImageMimeType_eq (buffer : Buffer) :
    (JPEG_SIGNATURE <+: buffer → sniffImageMimeType buffer = some .jpeg) ∧
    (PNG_SIGNATURE <+: buffer → sniffImageMimeType buffer = some .png) ∧
    (ReadsAsWebp buffer → sniffImageMimeType buffer = some .webp) ∧
    (¬ JPEG_SIGNATURE <+: buffer → ¬ PNG_SIGNATURE <+: buffer → ¬ ReadsAsWebp buffer →
      sniffImageMimeType buffer = none) := by
  have hjpeg : JPEG_SIGNATURE <+: buffer ↔ _ := jpeg_signature_iff
  have hpng : PNG_SIGNATURE <+: buffer ↔ _ := png_signature_iff
  unfold sniffImageMimeType
  refine ⟨fun h => ?_, fun h => ?_, fun h => ?_, fun hj hp hw => ?_⟩
  · rw [if_pos (hjpeg.mp h)]
  · rw [if_neg (mt hjpeg.mpr (not_jpeg_of_png h)), if_pos (hpng.mp h)]
  · rw [if_neg (mt hjpeg.mpr h.not_jpeg), if_neg (mt hpng.mpr h.not_png),
      if_pos ⟨h.length, h.riff, h.webp⟩]
  · rw [if_neg (mt hjpeg.mpr hj), if_neg (mt hpng.mpr hp),
      if_neg fun h => hw ⟨h.1, h.2.1, h.2.2⟩]

/-- Decoding changes a byte exactly when its highest bit is set. -/
theorem and_127_eq_self_iff (b : UInt8) : b &&& 0x7f = b ↔ b < 0x80 := by
  rw [← UInt8.toNat_inj, UInt8.lt_iff_toNat_lt, UInt8.toNat_and]
  change b.toNat &&& 2 ^ 7 - 1 = b.toNat ↔ b.toNat < 128
  rw [Nat.and_two_pow_sub_one_eq_mod]
  omega

theorem map_and_127_eq_self {bytes : Buffer} (h : ∀ b ∈ bytes, b < 0x80) :
    bytes.map (· &&& 0x7f) = bytes := by
  conv_rhs => rw [← List.map_id bytes]
  exact List.map_congr_left fun b hb => (and_127_eq_self_iff b).mpr (h b hb)

theorem ReadsAsWebp.isWebp (h : ReadsAsWebp buffer)
    (hbits : ∀ b ∈ slice buffer 0 4 ++ slice buffer 8 12, b < 0x80) : IsWebp buffer := by
  refine ⟨h.length, ?_, ?_⟩
  · rw [← h.riff, asciiSlice]
    exact (map_and_127_eq_self fun b hb => hbits b (List.mem_append_left _ hb)).symm
  · rw [← h.webp, asciiSlice]
    exact (map_and_127_eq_self fun b hb => hbits b (List.mem_append_right _ hb)).symm

theorem IsWebp.readsAsWebp (h : IsWebp buffer) : ReadsAsWebp buffer := by
  refine ⟨h.length, ?_, ?_⟩
  · have hriff := congrArg (List.map (· &&& 0x7f)) h.riff
    exact hriff.trans (by decide)
  · have hwebp := congrArg (List.map (· &&& 0x7f)) h.webp
    exact hwebp.trans (by decide)

theorem IsWebp.high_bits_clear (h : IsWebp buffer) :
    ∀ b ∈ slice buffer 0 4 ++ slice buffer 8 12, b < 0x80 := by
  rw [h.riff, h.webp]
  decide +kernel

end Buffer

open Buffer

/-- The recogniser is exact on a buffer if and only if no byte of the two words has its
highest bit set while they read as the signature of WebP. -/
theorem sniffed_exactly_iff (buffer : Buffer) : SniffedExactly buffer ↔
    (ReadsAsWebp buffer → ∀ b ∈ slice buffer 0 4 ++ slice buffer 8 12, b < 0x80) := by
  obtain ⟨hjpeg, hpng, hwebp, hnull⟩ := sniffImageMimeType_eq buffer
  constructor
  · intro h hreads
    exact (h.webp.mp (hwebp hreads)).high_bits_clear
  · intro h
    have hiff : ReadsAsWebp buffer ↔ IsWebp buffer :=
      ⟨fun hreads => hreads.isWebp (h hreads), IsWebp.readsAsWebp⟩
    by_cases hj : JPEG_SIGNATURE <+: buffer
    · have hp : ¬ PNG_SIGNATURE <+: buffer := fun hp => not_jpeg_of_png hp hj
      have hw : ¬ IsWebp buffer := fun hw => hw.readsAsWebp.not_jpeg hj
      exact ⟨by simp [hjpeg hj, hj], by simp [hjpeg hj, hp], by simp [hjpeg hj, hw],
        by simp [hjpeg hj, hj]⟩
    · by_cases hp : PNG_SIGNATURE <+: buffer
      · have hw : ¬ IsWebp buffer := fun hw => hw.readsAsWebp.not_png hp
        exact ⟨by simp [hpng hp, hj], by simp [hpng hp, hp], by simp [hpng hp, hw],
          by simp [hpng hp, hp]⟩
      · by_cases hw : IsWebp buffer
        · have hsniff := hwebp hw.readsAsWebp
          exact ⟨by simp [hsniff, hj], by simp [hsniff, hp], by simp [hsniff, hw],
            by simp [hsniff, hw]⟩
        · have hsniff := hnull hj hp fun hreads => hw (hiff.mp hreads)
          exact ⟨by simp [hsniff, hj], by simp [hsniff, hp], by simp [hsniff, hw],
            by simp [hsniff, hj, hp, hw]⟩

/-- The first letter of RIFF with its highest bit set. -/
theorem disguised_riff_is_webp : ¬ SniffedExactly
    [0xd2, 0x49, 0x46, 0x46, 0, 0, 0, 0, 0x57, 0x45, 0x42, 0x50] := by
  intro h
  have hwebp := (h.webp.mp (by decide)).riff
  revert hwebp
  decide

end TaroTria
