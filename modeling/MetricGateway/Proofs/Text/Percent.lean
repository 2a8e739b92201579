import MetricGateway.Text.Bytes
import Mathlib.Data.List.Basic

/- Percent escapes in a text. Decoding leaves a text as it is exactly if it has none in it, and makes
   no text longer. -/
namespace MetricGateway
namespace Text

def bytes (text : List Char) : List UInt8 := text.flatMap String.utf8EncodeChar

def beginsWithByte : List Char → Bool
  | high :: low :: _ => (hexDigit? high).isSome && (hexDigit? low).isSome
  | _ => false

/-- Whether a percent sign with two hexadecimal digits behind it is in the text. -/
def hasEscape : List Char → Bool
  | [] => false
  | c :: rest => c == '%' && beginsWithByte rest || hasEscape rest

theorem hasEscape_of_unsigned {text : List Char} (unsigned : '%' ∉ text) :
    hasEscape text = false := by
  induction text with
  | nil => rfl
  | cons c rest ih =>
    rw [List.mem_cons, not_or] at unsigned
    simp [hasEscape, Ne.symm unsigned.1, ih unsigned.2]

section Bytes

theorem toList_eq_data (b : ByteArray) : b.toList = b.data.toList := by
  have whole : ∀ i r, ByteArray.toList.loop b i r = r.reverse ++ b.data.toList.drop i := by
    intro i r
    fun_induction ByteArray.toList.loop b i r with
    | case1 i r below ih =>
      have size : i < b.data.toList.length := below
      have here : b.get! i = b.data.toList[i] := getElem!_pos b.data i below
      rw [ih, List.reverse_cons, List.append_assoc, List.singleton_append, here,
        ← List.drop_eq_getElem_cons size]
    | case2 i r beyond =>
      have size : b.data.toList.length ≤ i := Nat.not_lt.1 beyond
      rw [List.drop_eq_nil_of_le size, List.append_nil]
  exact (whole 0 []).trans (by simp)

theorem toByteArray_ofList (text : List Char) :
    (String.ofList text).toByteArray = ⟨(bytes text).toArray⟩ := by
  rw [String.toByteArray_ofList]
  apply ByteArray.ext
  rw [← Array.toList_inj, List.utf8Encode, List.toList_data_toByteArray]
  rfl

theorem toList_toUTF8 (text : List Char) : (String.ofList text).toUTF8.toList = bytes text := by
  rw [toList_eq_data, String.toUTF8_eq_toByteArray, toByteArray_ofList]

theorem bytes_append (front back : List Char) : bytes (front ++ back) = bytes front ++ bytes back :=
  List.flatMap_append

theorem bytes_cons (c : Char) (rest : List Char) :
    bytes (c :: rest) = String.utf8EncodeChar c ++ bytes rest :=
  List.flatMap_cons

theorem utf8EncodeChar_length_pos (c : Char) : 0 < (String.utf8EncodeChar c).length := by
  rw [String.length_utf8EncodeChar]
  exact c.utf8Size_pos

theorem length_le_bytes (text : List Char) : text.length ≤ (bytes text).length := by
  induction text with
  | nil => exact Nat.le_refl 0
  | cons c rest ih =>
    have own := utf8EncodeChar_length_pos c
    rw [bytes_cons, List.length_append, List.length_cons]
    omega

theorem hexDigit?_of_large {c : Char} (large : 128 ≤ c.toNat) : hexDigit? c = none := by
  have above : ∀ d : Char, d.toNat < 128 → ¬ c ≤ d := by
    intro d small le
    have order : c.toNat ≤ d.toNat := UInt32.le_iff_toNat_le.1 le
    omega
  have digit : c.isDigit = false := by
    have nine : ¬ c.val ≤ 57 := above '9' (by decide)
    simp [Char.isDigit, nine]
  simp [hexDigit?, digit, above 'f' (by decide), above 'F' (by decide)]

theorem hexDigit?_of_byte {b : UInt8} (large : 128 ≤ b.toNat) :
    hexDigit? (Char.ofNat b.toNat) = none := by
  have size : b.toNat < 256 := b.toNat_lt
  have valid : b.toNat.isValidChar := Or.inl (by omega)
  have own : (Char.ofNat b.toNat).toNat = b.toNat := by
    rw [Char.ofNat, dif_pos valid]
    rfl
  refine hexDigit?_of_large ?_
  rw [own]
  exact large

theorem hexDigit?_of_own {c : Char} (small : c.toNat < 128) :
    hexDigit? (Char.ofNat c.toNat.toUInt8.toNat) = hexDigit? c := by
  have same : c.toNat.toUInt8.toNat = c.toNat := Nat.mod_eq_of_lt (by omega)
  rw [same, Char.ofNat_toNat]

theorem bytes_of_char (c : Char) : String.utf8EncodeChar c = [c.toNat.toUInt8] ∧ c.toNat < 128 ∨
    128 ≤ c.toNat ∧ ∀ b ∈ String.utf8EncodeChar c, 128 ≤ b.toNat := by
  have value : c.val.toNat = c.toNat := rfl
  unfold String.utf8EncodeChar
  rw [value]
  dsimp only
  by_cases small : c.toNat ≤ 127
  · rw [if_pos small]
    exact Or.inl ⟨rfl, by omega⟩
  · refine Or.inr ⟨by omega, ?_⟩
    rw [if_neg small]
    split
    · simp
      omega
    · split
      · simp
        omega
      · simp
        omega

end Bytes

section Decode

def byteFirst? : List UInt8 → Option (UInt8 × List UInt8)
  | high :: low :: rest => (percentDecode.byte? high low).map (·, rest)
  | _ => none

theorem percentDecode_cons (b : UInt8) (rest : List UInt8) : percentDecode (b :: rest) =
    match if b = 0x25 then byteFirst? rest else none with
    | some (x, more) => x :: percentDecode more
    | none => b :: percentDecode rest := by
  match rest with
  | [] => simp [percentDecode, byteFirst?]
  | [c] => simp [percentDecode, byteFirst?]
  | high :: low :: rest =>
    rw [percentDecode, byteFirst?]
    by_cases mark : b = 0x25
    · rw [if_pos mark, if_pos mark]
      cases percentDecode.byte? high low <;> rfl
    · rw [if_neg mark, if_neg mark]

theorem length_of_byteFirst? {bs more : List UInt8} {x : UInt8}
    (first : byteFirst? bs = some (x, more)) : bs.length = more.length + 2 := by
  match bs with
  | [] => cases first
  | [_] => cases first
  | high :: low :: rest =>
    obtain ⟨y, _, same⟩ := Option.map_eq_some_iff.1 first
    cases same
    rfl

theorem length_percentDecode (bs : List UInt8) : (percentDecode bs).length ≤ bs.length := by
  induction size : bs.length using Nat.strongRecOn generalizing bs with
  | ind n ih =>
    match bs with
    | [] => exact Nat.zero_le n
    | b :: rest =>
      rw [List.length_cons] at size
      rw [percentDecode_cons]
      split
      · rename_i x more here
        have first := (Option.ite_none_right_eq_some.1 here).2
        have shorter := length_of_byteFirst? first
        have rest := ih more.length (by omega) more rfl
        rw [List.length_cons]
        omega
      · have rest := ih rest.length (by omega) rest rfl
        rw [List.length_cons]
        omega

theorem percentDecode_append {front : List UInt8} (plain : 0x25 ∉ front) (rest : List UInt8) :
    percentDecode (front ++ rest) = front ++ percentDecode rest := by
  induction front with
  | nil => rfl
  | cons b front ih =>
    rw [List.mem_cons, not_or] at plain
    rw [List.cons_append, percentDecode_cons, if_neg (Ne.symm plain.1), ih plain.2]
    rfl

def digitFirst (bs : List UInt8) : Bool :=
  bs.head?.any fun b => (hexDigit? (Char.ofNat b.toNat)).isSome

theorem isSome_byteFirst? (bs : List UInt8) :
    (byteFirst? bs).isSome = (digitFirst bs && digitFirst bs.tail) := by
  match bs with
  | [] => rfl
  | [b] => simp [byteFirst?, digitFirst]
  | high :: low :: rest =>
    simp only [byteFirst?, percentDecode.byte?, digitFirst, List.head?_cons, List.tail_cons,
      Option.any_some, Option.isSome_map]
    cases hexDigit? (Char.ofNat high.toNat) with
    | none => rfl
    | some h => cases hexDigit? (Char.ofNat low.toNat) <;> rfl

theorem digitFirst_bytes (text : List Char) :
    digitFirst (bytes text) = text.head?.any (fun c => (hexDigit? c).isSome) ∧
      (digitFirst (bytes text) = true → (bytes text).tail = bytes text.tail) := by
  cases text with
  | nil => exact ⟨rfl, fun _ => rfl⟩
  | cons c rest =>
    rw [bytes_cons]
    rcases bytes_of_char c with ⟨own, small⟩ | ⟨large, others⟩
    · rw [own]
      refine ⟨?_, fun _ => rfl⟩
      simp only [digitFirst, List.singleton_append, List.head?_cons, Option.any_some,
        hexDigit?_of_own small]
    · obtain ⟨b, more, split⟩ := List.exists_cons_of_length_pos (utf8EncodeChar_length_pos c)
      rw [split] at others ⊢
      have noDigit := hexDigit?_of_byte (others b List.mem_cons_self)
      simp [digitFirst, noDigit, hexDigit?_of_large large]

theorem isSome_byteFirst?_bytes (text : List Char) :
    (byteFirst? (bytes text)).isSome = beginsWithByte text := by
  have pair : beginsWithByte text = (text.head?.any (fun c => (hexDigit? c).isSome) &&
      text.tail.head?.any fun c => (hexDigit? c).isSome) := by
    match text with
    | [] => rfl
    | [c] => simp [beginsWithByte]
    | high :: low :: rest => rfl
  obtain ⟨first, others⟩ := digitFirst_bytes text
  rw [isSome_byteFirst?, pair, ← first, ← (digitFirst_bytes text.tail).1]
  cases digit : digitFirst (bytes text) with
  | false => rfl
  | true => rw [others digit]

theorem percentDecode_bytes (text : List Char) :
    percentDecode (bytes text) = bytes text ↔ hasEscape text = false := by
  induction text with
  | nil => simp [bytes, percentDecode, hasEscape]
  | cons c rest ih =>
    by_cases mark : c = '%'
    · subst mark
      have sign : bytes ('%' :: rest) = 0x25 :: bytes rest := rfl
      have escape := isSome_byteFirst?_bytes rest
      rw [sign, percentDecode_cons, if_pos rfl]
      cases first : byteFirst? (bytes rest) with
      | some pair =>
        obtain ⟨x, more⟩ := pair
        have shorter := length_of_byteFirst? first
        have decoded := length_percentDecode more
        rw [first] at escape
        constructor
        · intro same
          have lengths := congrArg List.length same
          simp only [List.length_cons] at lengths
          omega
        · simp [hasEscape, ← escape]
      | none =>
        rw [first] at escape
        simp [hasEscape, ← escape, ih]
    · have plain : 0x25 ∉ String.utf8EncodeChar c := by
        intro member
        rcases bytes_of_char c with ⟨own, small⟩ | ⟨_, others⟩
        · rw [own, List.mem_singleton] at member
          have code : c.toNat.toUInt8.toNat = c.toNat := Nat.mod_eq_of_lt (by omega)
          have sign : '%'.toNat = c.toNat := (congrArg UInt8.toNat member).trans code
          exact mark (Char.toNat_inj.1 sign).symm
        · exact absurd (others _ member) (by decide)
      rw [bytes_cons, percentDecode_append plain, List.append_cancel_left_eq, ih]
      simp [hasEscape, mark]

end Decode

end Text
end MetricGateway
