import Folio.Text.Base64Url
import Folio.Text.Blank

/-!
# Base 64 reads back what it writes

Three bytes become four values below 64 and four such values become three bytes. Both directions
move bits without loss, also for the one or two bytes that may be left over, so reading what was
written gives the bytes back.
-/

namespace Folio.Text.Base64Url

/-- The values of digits that stand for bytes fit six bits. -/
theorem lt_of_mem_values {bytes : List UInt8} {value : Nat} (h : value ∈ values bytes) :
    value < 64 := by
  fun_induction values bytes with
  | case1 a b c rest ih =>
    have ha := a.toNat_lt
    have hb := b.toNat_lt
    have hc := c.toNat_lt
    simp only [List.mem_cons] at h
    rcases h with rfl | rfl | rfl | rfl | h
    · omega
    · omega
    · omega
    · omega
    · exact ih h
  | case2 a b =>
    have ha := a.toNat_lt
    have hb := b.toNat_lt
    simp only [List.mem_cons, List.not_mem_nil, or_false] at h
    omega
  | case3 a =>
    have ha := a.toNat_lt
    simp only [List.mem_cons, List.not_mem_nil, or_false] at h
    omega
  | case4 => simp at h

/-- Bits that are taken apart and put together again give the byte back. -/
theorem ofNat_eq {a : UInt8} {n : Nat} (h : n = a.toNat) : UInt8.ofNat n = a := by
  rw [h, UInt8.ofNat_toNat]

/-- The values of bytes stand for these bytes. -/
theorem bytesOf?_values (bytes : List UInt8) : bytesOf? (values bytes) = some bytes := by
  fun_induction values bytes with
  | case1 a b c rest ih =>
    have ha := a.toNat_lt
    have hb := b.toNat_lt
    have hc := c.toNat_lt
    simp only [bytesOf?, ih, Option.map_some, Option.some.injEq, List.cons.injEq, and_true]
    exact ⟨ofNat_eq (by omega), ofNat_eq (by omega), ofNat_eq (by omega)⟩
  | case2 a b =>
    have ha := a.toNat_lt
    have hb := b.toNat_lt
    rw [bytesOf?, if_pos (by omega), ofNat_eq (by omega : _ = a.toNat),
      ofNat_eq (by omega : _ = b.toNat)]
  | case3 a =>
    have ha := a.toNat_lt
    rw [bytesOf?, if_pos (by omega), ofNat_eq (by omega : _ = a.toNat)]
  | case4 => rfl

/-- A digit has the value that it is the digit of. -/
theorem value?_digit {value : Nat} (h : value < 64) : value? (digit value) = some value := by
  have hall : ∀ v : Fin 64, value? (digit v) = some v.val := by decide +kernel
  exact hall ⟨value, h⟩

/-- A digit is a character of the alphabet. -/
theorem digit_mem_alphabet (value : Nat) : digit value ∈ alphabet := by
  unfold digit
  rw [List.getD_eq_getElem?_getD]
  cases h : alphabet[value]? with
  | none => decide
  | some c => exact List.mem_of_getElem? h

/-- The digits of values are read back as these values. -/
theorem mapM_value?_digits {vs : List Nat} (h : ∀ v ∈ vs, v < 64) :
    (vs.map digit).mapM value? = some vs := by
  induction vs with
  | nil => rfl
  | cons v vs ih =>
    rw [List.map_cons, List.mapM_cons, value?_digit (h v List.mem_cons_self),
      ih fun w hw => h w (List.mem_cons_of_mem v hw)]
    rfl

/-- Reading what was written gives the bytes back. -/
theorem decode?_encode (bytes : List UInt8) : decode? (encode bytes) = some bytes := by
  unfold decode? encode
  rw [String.toList_ofList, mapM_value?_digits fun v hv => lt_of_mem_values hv]
  exact bytesOf?_values bytes

/-- What is written holds characters of the alphabet only. -/
theorem mem_alphabet_of_mem_encode {bytes : List UInt8} {c : Char}
    (h : c ∈ (encode bytes).toList) : c ∈ alphabet := by
  rw [encode, String.toList_ofList] at h
  obtain ⟨value, _, rfl⟩ := List.mem_map.mp h
  exact digit_mem_alphabet value

end Folio.Text.Base64Url

namespace Folio.Text

/-- Without a blank at the front nothing is dropped there. -/
theorem dropWhile_isBlank_eq_self {cs : List Char} (h : ∀ c ∈ cs, isBlank c = false) :
    cs.dropWhile isBlank = cs := by
  cases cs with
  | nil => rfl
  | cons c cs => rw [List.dropWhile_cons_of_neg (by simp [h c List.mem_cons_self])]

/-- A text without blanks is trimmed already. -/
theorem trim_eq_self {text : String} (h : ∀ c ∈ text.toList, isBlank c = false) :
    trim text = text := by
  unfold trim
  rw [dropWhile_isBlank_eq_self h, dropWhile_isBlank_eq_self (by simpa using h),
    List.reverse_reverse, String.ofList_toList]

/-- No character of the alphabet is blank. -/
theorem Base64Url.isBlank_eq_false_of_mem_alphabet {c : Char} (h : c ∈ alphabet) :
    isBlank c = false := by
  have hall : alphabet.all (fun c => !isBlank c) = true := by decide +kernel
  simpa using List.all_eq_true.mp hall c h

/-- Trimming does not change what was written in base 64. -/
theorem Base64Url.trim_encode (bytes : List UInt8) : trim (encode bytes) = encode bytes :=
  trim_eq_self fun _ hc => isBlank_eq_false_of_mem_alphabet (mem_alphabet_of_mem_encode hc)

end Folio.Text
