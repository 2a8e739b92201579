import MetricGateway.Proofs.Exposition.Escaping
import MetricGateway.Proofs.Text.Scan

/- Where a quoted text ends: at the first double quote that no backslash escapes. A backslash that
   is itself escaped escapes nothing, so that the number of backslashes before a character decides,
   and nothing that stands further ahead. -/
namespace MetricGateway
namespace Escape

/-- What stands behind the text is escaped: the text ends in an odd number of backslashes. -/
def Escapes (text : List Char) : Prop :=
  (text.reverse.takeWhile (· = '\\')).length % 2 = 1

def Unbroken (text : List Char) : Prop :=
  ∀ front back, text = front ++ '"' :: back → Escapes front

structure Enclosed (text : List Char) : Prop where
  unbroken : Unbroken text
  finish : ¬ Escapes text

instance (text : List Char) : Decidable (Escapes text) := inferInstanceAs (Decidable (_ = _))

theorem not_escapes_nil : ¬ Escapes [] := by decide

theorem escapes_slash : Escapes ['\\'] := by decide

theorem escapes_pair (c : Char) (text : List Char) :
    Escapes ('\\' :: c :: text) ↔ Escapes text := by
  unfold Escapes
  rw [List.reverse_cons, List.reverse_cons, List.append_assoc, List.takeWhile_append]
  split
  · rename_i whole
    -- Only backslashes stand behind the pair; a backslash for `c` joins them together with the
    -- one before it.
    have pair : ([c] ++ ['\\']).takeWhile (fun d => decide (d = '\\')) =
        if c = '\\' then ['\\', '\\'] else [] := by
      by_cases slash : c = '\\' <;> simp [slash]
    rw [pair, List.length_append, whole]
    split <;> simp
  · rfl

theorem escapes_cons {c : Char} (plain : c ≠ '\\') (text : List Char) :
    Escapes (c :: text) ↔ Escapes text := by
  unfold Escapes
  rw [List.reverse_cons, List.takeWhile_append]
  split
  · rename_i whole
    simp [plain, whole]
  · rfl

theorem unbroken_nil : Unbroken [] := by
  intro front back split
  simp at split

theorem not_unbroken_quote (text : List Char) : ¬ Unbroken ('"' :: text) :=
  fun unbroken => not_escapes_nil (unbroken [] text rfl)

theorem unbroken_slash : Unbroken ['\\'] := by
  intro front back split
  rcases List.cons_eq_append_iff.1 split with ⟨_, first⟩ | ⟨rest, _, later⟩
  · simp at first
  · simp at later

theorem unbroken_pair (c : Char) (text : List Char) :
    Unbroken ('\\' :: c :: text) ↔ Unbroken text := by
  constructor
  · intro unbroken front back split
    exact (escapes_pair c front).1 (unbroken ('\\' :: c :: front) back (by simp [split]))
  · intro unbroken front back split
    rcases List.cons_eq_append_iff.1 split with ⟨_, first⟩ | ⟨front, rfl, later⟩
    · simp at first
    · rcases List.cons_eq_append_iff.1 later with ⟨rfl, _⟩ | ⟨front, rfl, behind⟩
      · exact escapes_slash
      · exact (escapes_pair c front).2 (unbroken front back behind)

theorem unbroken_cons {c : Char} (plain : c ≠ '\\') (noQuote : c ≠ '"') (text : List Char) :
    Unbroken (c :: text) ↔ Unbroken text := by
  constructor
  · intro unbroken front back split
    exact (escapes_cons plain front).1 (unbroken (c :: front) back (by simp [split]))
  · intro unbroken front back split
    rcases List.cons_eq_append_iff.1 split with ⟨_, first⟩ | ⟨front, rfl, behind⟩
    · exact absurd (List.cons.inj first).1.symm noQuote
    · exact (escapes_cons plain front).2 (unbroken front back behind)

theorem Unbroken.append {text rest : List Char} (unbroken : Unbroken text) (clear : '"' ∉ rest) :
    Unbroken (text ++ rest) := by
  intro front back split
  obtain ⟨inner, own, _⟩ := Text.exists_of_append_eq clear split
  exact unbroken front inner own

theorem Unbroken.front {text rest : List Char} (unbroken : Unbroken (text ++ rest)) :
    Unbroken text := by
  intro front back split
  exact unbroken front (back ++ rest) (by simp [split])

theorem enclosed_nil : Enclosed [] := ⟨unbroken_nil, not_escapes_nil⟩

theorem enclosed_pair (c : Char) (text : List Char) :
    Enclosed ('\\' :: c :: text) ↔ Enclosed text := by
  constructor
  · rintro ⟨unbroken, finish⟩
    exact ⟨(unbroken_pair c text).1 unbroken, fun ends => finish ((escapes_pair c text).2 ends)⟩
  · rintro ⟨unbroken, finish⟩
    exact ⟨(unbroken_pair c text).2 unbroken, fun ends => finish ((escapes_pair c text).1 ends)⟩

theorem enclosed_cons {c : Char} (plain : c ≠ '\\') (noQuote : c ≠ '"') (text : List Char) :
    Enclosed (c :: text) ↔ Enclosed text := by
  constructor
  · rintro ⟨unbroken, finish⟩
    exact ⟨(unbroken_cons plain noQuote text).1 unbroken,
      fun ends => finish ((escapes_cons plain text).2 ends)⟩
  · rintro ⟨unbroken, finish⟩
    exact ⟨(unbroken_cons plain noQuote text).2 unbroken,
      fun ends => finish ((escapes_cons plain text).1 ends)⟩

theorem not_enclosed_slash : ¬ Enclosed ['\\'] := fun enclosed => enclosed.finish escapes_slash

theorem splitQuote_enclosed {quoted : List Char} (enclosed : Enclosed quoted) (rest : List Char) :
    splitQuote (quoted ++ '"' :: rest) = some (quoted, rest) := by
  fun_induction splitQuote quoted with
  | case1 => rfl
  | case2 text => exact absurd enclosed.unbroken (not_unbroken_quote text)
  | case3 c text ih =>
    have later := ih ((enclosed_pair c text).1 enclosed)
    simp [splitQuote, later]
  | case4 c text noQuote notBefore ih =>
    by_cases slash : c = '\\'
    · subst slash
      cases text with
      | nil => exact absurd enclosed not_enclosed_slash
      | cons d text => exact absurd rfl (notBefore d text rfl)
    · have later := ih ((enclosed_cons slash noQuote text).1 enclosed)
      rw [List.cons_append, splitQuote_cons slash noQuote, later]
      rfl

theorem enclosed_of_splitQuote {text quoted rest : List Char}
    (split : splitQuote text = some (quoted, rest)) :
    text = quoted ++ '"' :: rest ∧ Enclosed quoted := by
  fun_induction splitQuote text generalizing quoted rest with
  | case1 => cases split
  | case2 text =>
    cases split
    exact ⟨rfl, enclosed_nil⟩
  | case3 c text ih =>
    obtain ⟨⟨quoted, rest⟩, found, same⟩ := Option.map_eq_some_iff.1 split
    cases same
    obtain ⟨rfl, enclosed⟩ := ih found
    exact ⟨rfl, (enclosed_pair c quoted).2 enclosed⟩
  | case4 c text noQuote notBefore ih =>
    obtain ⟨⟨quoted, rest⟩, found, same⟩ := Option.map_eq_some_iff.1 split
    cases same
    obtain ⟨rfl, enclosed⟩ := ih found
    have plain : c ≠ '\\' := by
      rintro rfl
      cases quoted with
      | nil => exact notBefore '"' rest rfl rfl
      | cons d quoted => exact notBefore d _ rfl rfl
    exact ⟨rfl, (enclosed_cons plain noQuote quoted).2 enclosed⟩

theorem splitQuote_eq_some_iff {text quoted rest : List Char} :
    splitQuote text = some (quoted, rest) ↔ text = quoted ++ '"' :: rest ∧ Enclosed quoted := by
  constructor
  · exact enclosed_of_splitQuote
  · rintro ⟨rfl, enclosed⟩
    exact splitQuote_enclosed enclosed rest

theorem splitQuote_eq_none_iff {text : List Char} : splitQuote text = none ↔ Unbroken text := by
  fun_induction splitQuote text with
  | case1 => exact iff_of_true rfl unbroken_nil
  | case2 text => exact iff_of_false (by simp) (not_unbroken_quote text)
  | case3 c text ih => rw [Option.map_eq_none_iff, ih, unbroken_pair]
  | case4 c text noQuote notBefore ih =>
    rw [Option.map_eq_none_iff, ih]
    by_cases slash : c = '\\'
    · subst slash
      cases text with
      | nil => exact iff_of_true unbroken_nil unbroken_slash
      | cons d text => exact absurd rfl (notBefore d text rfl)
    · exact (unbroken_cons slash noQuote text).symm

instance (text : List Char) : Decidable (Unbroken text) :=
  decidable_of_iff (splitQuote text = none) splitQuote_eq_none_iff

end Escape
end MetricGateway
