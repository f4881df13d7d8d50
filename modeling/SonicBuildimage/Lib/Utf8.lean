/-
  UTF-8 as Python has it: `bytes(s, 'utf-8')` and a strict `decode()`.

  Bytes are lists of `UInt8`.  A text decodes to what was encoded and nothing else does
  (`decode_encode`, `encode_of_decode`), and a zero byte is a NUL character (`zero_mem_encode`).
-/
import Mathlib.Data.List.Basic

namespace SonicBuildimage.Lib.Utf8

/-- `bytes(s, 'utf-8')`. -/
def encode (cs : List Char) : List UInt8 := cs.flatMap String.utf8EncodeChar

/-- `bs.decode()`; `none` is a `UnicodeDecodeError`. -/
def decode (bs : List UInt8) : Option (List Char) := bs.toByteArray.utf8Decode?.map Array.toList

theorem encode_cons (c : Char) (cs : List Char) :
    encode (c :: cs) = String.utf8EncodeChar c ++ encode cs := List.flatMap_cons

theorem encode_singleton (c : Char) : encode [c] = String.utf8EncodeChar c := List.append_nil _

theorem encode_append (cs ds : List Char) : encode (cs ++ ds) = encode cs ++ encode ds :=
  List.flatMap_append

theorem decode_encode (cs : List Char) : decode (encode cs) = some cs := by
  have hround : (encode cs).toByteArray.utf8Decode? = some cs.toArray := List.utf8Decode?_utf8Encode
  rw [decode, hround]
  rfl

theorem encode_of_decode {bs : List UInt8} {cs : List Char} (h : decode bs = some cs) :
    encode cs = bs := by
  obtain ⟨a, ha, rfl⟩ := Option.map_eq_some_iff.1 h
  have hsome : bs.toByteArray.utf8Decode?.isSome = true := by rw [ha]; rfl
  have hround : (bs.toByteArray.utf8Decode?.get hsome).toList.utf8Encode = bs.toByteArray :=
    ByteArray.utf8Encode_get_utf8Decode?
  simp only [ha, Option.get_some] at hround
  exact List.toByteArray_inj.1 hround

theorem encode_inj {cs ds : List Char} (h : encode cs = encode ds) : cs = ds := by
  have hdecode := congrArg decode h
  rw [decode_encode, decode_encode] at hdecode
  exact Option.some.inj hdecode

/-- The bytes of a character of ASCII. -/
theorem utf8EncodeChar_ascii {c : Char} (h : c.toNat < 128) :
    String.utf8EncodeChar c = [UInt8.ofNat c.toNat] := by
  unfold String.utf8EncodeChar
  exact if_pos (Nat.lt_succ_iff.1 h)

theorem toNat_ofNat_ascii {n : Nat} (h : n < 128) : (Char.ofNat n).toNat = n := by
  have hvalid : n.isValidChar := .inl (by omega)
  rw [Char.ofNat, dif_pos hvalid]
  rfl

theorem ofNat_ne_zero {n : Nat} (h : 0 < n) (hn : n < 256) : UInt8.ofNat n ≠ 0 := by
  intro h0
  have hnat : (UInt8.ofNat n).toNat = 0 := congrArg UInt8.toNat h0
  rw [UInt8.toNat_ofNat'] at hnat
  omega

/-- Only NUL has a zero byte. -/
theorem ne_zero_of_mem_utf8EncodeChar {c : Char} (hc : c ≠ '\x00') {b : UInt8}
    (hb : b ∈ String.utf8EncodeChar c) : b ≠ 0 := by
  have hval : 0 < c.val.toNat := by
    refine Nat.pos_of_ne_zero fun h => hc ?_
    exact Char.ext (UInt32.toNat_inj.1 h)
  unfold String.utf8EncodeChar at hb
  dsimp only at hb
  split_ifs at hb with h₁ h₂ h₃ <;> simp only [List.mem_cons, List.not_mem_nil, or_false] at hb
  · rw [hb]
    exact ofNat_ne_zero hval (by omega)
  · rcases hb with rfl | rfl <;> exact ofNat_ne_zero (by omega) (by omega)
  · rcases hb with rfl | rfl | rfl <;> exact ofNat_ne_zero (by omega) (by omega)
  · rcases hb with rfl | rfl | rfl | rfl <;> exact ofNat_ne_zero (by omega) (by omega)

/-- A zero byte is a NUL character. -/
theorem zero_mem_encode {cs : List Char} (h : (0 : UInt8) ∈ encode cs) : '\x00' ∈ cs := by
  obtain ⟨c, hc, hb⟩ := List.mem_flatMap.1 h
  by_contra hnot
  exact ne_zero_of_mem_utf8EncodeChar (fun hnul => hnot (hnul ▸ hc)) hb rfl

/-- The last byte of a character that is not of ASCII. -/
theorem le_last_utf8EncodeChar {c : Char} (hc : 128 ≤ c.toNat) {bs : List UInt8} {b : UInt8}
    (h : String.utf8EncodeChar c = bs ++ [b]) : 128 ≤ b.toNat := by
  have hlast : (String.utf8EncodeChar c).getLast? = some (UInt8.ofNat (c.toNat % 64 + 128)) := by
    have hbig : ¬c.val.toNat ≤ 127 := Nat.not_le.2 hc
    unfold String.utf8EncodeChar
    dsimp only
    rw [if_neg hbig]
    split_ifs <;> rfl
  rw [h, List.getLast?_concat] at hlast
  rw [Option.some.inj hlast, UInt8.toNat_ofNat']
  omega

/-- A byte of ASCII at the end is the last character. -/
theorem encode_eq_concat {cs : List Char} (bs : List UInt8) {b : UInt8} (hb : b.toNat < 128)
    (h : encode cs = bs ++ [b]) :
    ∃ ds, cs = ds ++ [Char.ofNat b.toNat] ∧ encode ds = bs := by
  rcases List.eq_nil_or_concat cs with rfl | ⟨ds, c, rfl⟩
  · exact absurd (congrArg List.length h) (by simp [encode])
  · rw [List.concat_eq_append] at h ⊢
    rw [encode_append, encode_singleton] at h
    obtain ⟨init, last, hchar⟩ : ∃ init last, String.utf8EncodeChar c = init ++ [last] :=
      ⟨_, _, (List.dropLast_append_getLast String.utf8EncodeChar_ne_nil).symm⟩
    rw [hchar, ← List.append_assoc] at h
    obtain ⟨hinit, hlast⟩ := List.append_inj' h rfl
    obtain rfl := (List.cons.inj hlast).1
    have hc : c.toNat < 128 := by
      by_contra hc
      exact absurd (le_last_utf8EncodeChar (Nat.not_lt.1 hc) hchar) (Nat.not_le.2 hb)
    rw [utf8EncodeChar_ascii hc, ← List.nil_append [UInt8.ofNat c.toNat]] at hchar
    obtain ⟨rfl, hbyte⟩ := List.append_inj' hchar rfl
    rw [List.append_nil] at hinit
    refine ⟨ds, ?_, hinit⟩
    rw [← (List.cons.inj hbyte).1, UInt8.toNat_ofNat', Nat.mod_eq_of_lt (by omega),
      Char.ofNat_toNat]

/-- A zero byte at the beginning is the first character. -/
theorem encode_eq_zero_cons {cs : List Char} {bs : List UInt8} (h : encode cs = 0 :: bs) :
    ∃ ds, cs = '\x00' :: ds ∧ encode ds = bs := by
  cases cs with
  | nil => exact absurd h (by simp [encode])
  | cons c ds =>
    have hc : c = '\x00' := by
      by_contra hc
      rw [encode_cons] at h
      cases hchar : String.utf8EncodeChar c with
      | nil => exact String.utf8EncodeChar_ne_nil hchar
      | cons b cs =>
        rw [hchar, List.cons_append] at h
        exact ne_zero_of_mem_utf8EncodeChar hc (hchar ▸ List.mem_cons_self) (List.cons.inj h).1
    subst hc
    exact ⟨ds, rfl, (List.cons.inj h).2⟩

/-- What follows a zero byte at the end is of ASCII. -/
theorem ascii_of_zero {cs : List Char} {bs : List UInt8} {b : UInt8}
    (h : encode cs = bs ++ [0, b]) : b.toNat < 128 := by
  rcases List.eq_nil_or_concat cs with rfl | ⟨ds, c, rfl⟩
  · exact absurd (congrArg List.length h) (by simp [encode])
  · rw [List.concat_eq_append, encode_append, encode_singleton] at h
    by_cases hc : c.toNat < 128
    · rw [utf8EncodeChar_ascii hc, show bs ++ [0, b] = (bs ++ [0]) ++ [b] by simp] at h
      rw [← (List.cons.inj (List.append_inj' h rfl).2).1, UInt8.toNat_ofNat']
      omega
    · -- a character of two bytes or more has no zero byte
      have hlen : 2 ≤ (String.utf8EncodeChar c).length := by
        have hbig : ¬c.val.toNat ≤ 127 := fun h => hc (Nat.lt_succ_of_le h)
        unfold String.utf8EncodeChar
        dsimp only
        rw [if_neg hbig]
        split_ifs <;> simp
      have hsuffix : [0, b] <:+ String.utf8EncodeChar c :=
        List.suffix_of_suffix_length_le (h ▸ List.suffix_append bs _) (List.suffix_append _ _) hlen
      refine absurd rfl (ne_zero_of_mem_utf8EncodeChar ?_ (hsuffix.mem List.mem_cons_self))
      rintro rfl
      exact hc (by decide)

theorem encode_ne_nil {cs : List Char} (h : cs ≠ []) : encode cs ≠ [] := by
  cases cs with
  | nil => exact absurd rfl h
  | cons c cs =>
    rw [encode_cons]
    exact List.append_ne_nil_of_left_ne_nil String.utf8EncodeChar_ne_nil _

end SonicBuildimage.Lib.Utf8
