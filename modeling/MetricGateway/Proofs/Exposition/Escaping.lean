import MetricGateway.Exposition.Escape

/- Escaped texts are read back, are free of line feeds, and end where they were closed. -/
namespace MetricGateway
namespace Escape

theorem decode_cons {place : Place} {c : Char} (plain : c ≠ '\\') (rest : List Char) :
    decode place (c :: rest) = c :: decode place rest := by
  cases rest with
  | nil => simp [decode, plain]
  | cons d rest => simp [decode, plain]

theorem decode_encode (place : Place) (text : List Char) :
    decode place (encode place text) = text := by
  induction text with
  | nil => rfl
  | cons c rest ih =>
    simp only [encode]
    split
    · rename_i slash
      simp [decode, ih, slash]
    · rename_i noSlash
      split
      · rename_i feed
        simp [decode, ih, feed]
      · split
        · rename_i quote
          obtain ⟨quote, rfl⟩ := quote
          simp [decode, ih, quote]
        · rw [decode_cons noSlash, ih]

theorem splitQuote_cons {c : Char} (noSlash : c ≠ '\\') (noQuote : c ≠ '"') (rest : List Char) :
    splitQuote (c :: rest) = (splitQuote rest).map fun (text, after) => (c :: text, after) := by
  simp [splitQuote, noSlash]

theorem splitQuote_encode (text rest : List Char) :
    splitQuote (encode .label text ++ '"' :: rest) = some (encode .label text, rest) := by
  induction text with
  | nil => rfl
  | cons c text ih =>
    simp only [encode]
    split
    · simp [splitQuote, ih]
    · rename_i noSlash
      split
      · simp [splitQuote, ih]
      · split
        · simp [splitQuote, ih]
        · rename_i quote
          have noQuote : c ≠ '"' := by simpa using quote
          simp [splitQuote_cons noSlash noQuote, ih]

theorem feed_notMem_encode (place : Place) (text : List Char) : '\n' ∉ encode place text := by
  induction text with
  | nil => simp [encode]
  | cons c text ih =>
    simp only [encode]
    split
    · simpa using ih
    · split
      · simpa using ih
      · rename_i noFeed
        split <;> simp [ih, Ne.symm noFeed]

theorem head_encode {place : Place} {text : List Char} {c : Char}
    (head : (encode place text).head? = some c) : c = '\\' ∨ text.head? = some c := by
  cases text with
  | nil => simp [encode] at head
  | cons d text =>
    simp only [encode] at head
    split at head
    · exact Or.inl (by simpa using head.symm)
    · split at head
      · exact Or.inl (by simpa using head.symm)
      · split at head
        · exact Or.inl (by simpa using head.symm)
        · exact Or.inr (by simpa using head)

theorem encode_append (place : Place) (text more : List Char) :
    encode place (text ++ more) = encode place text ++ encode place more := by
  induction text with
  | nil => rfl
  | cons c text ih =>
    simp only [List.cons_append, encode, ih]
    repeat' split
    all_goals rfl

theorem getLast_encode {place : Place} {text : List Char}
    (last : (encode place text).getLast? = some '\r') : text.getLast? = some '\r' := by
  rcases List.eq_nil_or_concat text with rfl | ⟨init, c, rfl⟩
  · cases last
  · rw [List.concat_eq_append, encode_append, List.getLast?_append] at last
    rw [List.concat_eq_append, List.getLast?_concat]
    by_cases slash : c = '\\'
    · simp [encode, slash] at last
    · by_cases feed : c = '\n'
      · simp [encode, feed] at last
      · by_cases quote : c = '"' ∧ place = .label
        · simp [encode, quote] at last
        · simpa [encode, slash, feed, quote] using last

end Escape
end MetricGateway
