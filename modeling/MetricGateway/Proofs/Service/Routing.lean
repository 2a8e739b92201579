import MetricGateway.Service.Route
import MetricGateway.Proofs.Text.Percent
import MetricGateway.Proofs.Text.Scan

/- Where a path of one instance leads. Its parameters are what stands between slashes, up to the end
   of the path, with escapes decoded; so a parameter that is written as it is comes back unchanged
   only where none of these is in it. Which characters a target can carry at all is left open. -/
namespace MetricGateway
namespace Route

/-- Nothing in the text ends a parameter or the path, and nothing in it is decoded. -/
structure Literal (text : String) : Prop where
  slash : '/' ∉ text.toList
  query : '?' ∉ text.toList
  fragment : '#' ∉ text.toList
  escape : Text.hasEscape text.toList = false

instance (text : String) : Decidable (Literal text) :=
  decidable_of_iff ('/' ∉ text.toList ∧ '?' ∉ text.toList ∧ '#' ∉ text.toList ∧
    Text.hasEscape text.toList = false)
    ⟨fun ⟨slash, query, fragment, escape⟩ => ⟨slash, query, fragment, escape⟩,
      fun own => ⟨own.slash, own.query, own.fragment, own.escape⟩⟩

/-- Whether a text can be a segment of a path as it is, where targets can carry some characters. -/
structure Plain (carries : Char → Bool) (text : String) : Prop extends Literal text where
  filled : text ≠ ""
  carried : ∀ c ∈ text.toList, carries c = true

instance (carries : Char → Bool) (text : String) : Decidable (Plain carries text) :=
  decidable_of_iff (Literal text ∧ text ≠ "" ∧ text.toList.all carries = true)
    ⟨fun ⟨own, filled, carried⟩ => ⟨own, filled, List.all_eq_true.1 carried⟩,
      fun plain => ⟨plain.toLiteral, plain.filled, List.all_eq_true.2 plain.carried⟩⟩

/-- A request that can be sent leads to one instance by two parameters with something in each. -/
structure Leads (carries : Char → Bool) (r : Request) (appId number : String) : Prop where
  carried : ∀ c ∈ r.target.toList, carries c = true
  route : ofRequest r = .ok (.single appId number)
  appId : appId ≠ ""
  number : number ≠ ""

theorem fromUTF8?_eq_some {b : ByteArray} {text : String} :
    String.fromUTF8? b = some text ↔ b = text.toByteArray := by
  unfold String.fromUTF8?
  split
  · rename_i valid
    rw [Option.some_inj, ← String.toByteArray_inj]
    rfl
  · rename_i invalid
    constructor
    · intro decoded
      cases decoded
    · rintro rfl
      exact absurd text.isValidUTF8 invalid

theorem decode?_eq_some {parameter text : List Char} :
    decode? parameter = some (String.ofList text) ↔
      Text.percentDecode (Text.bytes parameter) = Text.bytes text := by
  unfold decode?
  rw [fromUTF8?_eq_some, Text.toList_toUTF8, Text.toByteArray_ofList, ByteArray.mk.injEq]
  exact ⟨fun same => List.toArray_inj same, congrArg List.toArray⟩

theorem parameters?_eq_some {rest first second : List Char} :
    parameters? (singleStart ++ rest) = some (first, second) ↔
      rest = first ++ '/' :: second ∧ '/' ∉ first ∧ second ≠ [] ∧ '/' ∉ second := by
  unfold parameters?
  simp only [Text.afterStart?_append, Option.bind_eq_bind, Option.bind_some]
  constructor
  · intro parameters
    have split := List.takeWhile_append_dropWhile (p := (· != '/')) (l := rest)
    have before : '/' ∉ rest.takeWhile (· != '/') := fun member => by
      simpa using List.mem_takeWhile_imp member
    split at parameters
    · rename_i number back
      split at parameters
      · cases parameters
      · rename_i fits
        cases parameters
        rw [back] at split
        exact ⟨split.symm, before, by simpa using fits⟩
    · cases parameters
  · rintro ⟨rfl, before, filled, after⟩
    have run : ∀ c ∈ first, (c != '/') = true := by
      intro c member
      rw [bne_iff_ne]
      rintro rfl
      exact before member
    rw [List.takeWhile_append_of_pos run, List.dropWhile_append_of_pos run]
    simp [filled, after]

theorem path_of_single {r : Request} {tail : List Char}
    (target : r.target.toList = singleStart ++ tail) :
    r.path = singleStart ++ tail.takeWhile fun c => c != '?' && c != '#' := by
  have start : ∀ c ∈ singleStart, (c != '?' && c != '#') = true := List.all_eq_true.1 (by decide)
  unfold Request.path Request.pathOf
  rw [target, List.takeWhile_append_of_pos start]
  rfl

theorem find?_single {rest : List Char} {method appId number : String} :
    find? (singleStart ++ rest) = some (method, .ok (.single appId number)) ↔ method = "GET" ∧
      ∃ first second, parameters? (singleStart ++ rest) = some (first, second) ∧
        decode? first = some appId ∧ decode? second = some number := by
  have other : ∀ path : List Char, path[1]? ≠ some 's' → singleStart ++ rest ≠ path := by
    rintro path second rfl
    exact second rfl
  unfold find?
  rw [if_neg (other _ (by decide)), if_neg (other _ (by decide)), if_neg (other _ (by decide)),
    if_neg (other _ (by decide))]
  cases parameters? (singleStart ++ rest) with
  | none => simp
  | some pair =>
    obtain ⟨first, second⟩ := pair
    cases left : decode? first with
    | none => simp [left]
    | some a =>
      cases right : decode? second with
      | none => simp [left, right]
      | some b => simp [left, right, eq_comm]

theorem ofRequest_single {r : Request} (get : r.method = "GET") {rest : List Char}
    (path : r.path = singleStart ++ rest) {appId number : String} :
    ofRequest r = .ok (.single appId number) ↔
      ∃ first second, parameters? (singleStart ++ rest) = some (first, second) ∧
        decode? first = some appId ∧ decode? second = some number := by
  unfold ofRequest
  rw [path]
  constructor
  · intro leads
    split at leads
    · cases leads
    · rename_i method route found
      split at leads
      · rw [leads] at found
        exact (find?_single.1 found).2
      · cases leads
  · intro parameters
    rw [find?_single.2 ⟨rfl, parameters⟩]
    simp [get]

theorem before_slash {first front back : List Char} (slash : '/' ∉ first)
    (before : first <+: front ++ '/' :: back) : first <+: front := by
  rcases List.prefix_or_prefix_of_prefix before (List.prefix_append front _) with shorter | longer
  · exact shorter
  · obtain ⟨more, rfl⟩ := longer
    rw [List.prefix_append_right_inj] at before
    cases more with
    | nil => simp
    | cons c more =>
      obtain ⟨rfl, _⟩ := List.cons_prefix_cons.1 before
      exact absurd (List.mem_append_right _ List.mem_cons_self) slash

theorem eq_of_decode? {part text : List Char} (before : part <+: text)
    (decoded : decode? part = some (String.ofList text)) : part = text := by
  obtain ⟨rest, rfl⟩ := before
  have same := decode?_eq_some.1 decoded
  have shorter := Text.length_percentDecode (Text.bytes part)
  rw [same, Text.bytes_append, List.length_append] at shorter
  have nothing : rest.length = 0 := Nat.le_zero.1 (by
    have few := Text.length_le_bytes rest
    omega)
  rw [List.length_eq_zero_iff.1 nothing, List.append_nil]

/-- The number stands last in the path and has nothing in it to misread, so that all depends on the
    application id before it. -/
theorem ofRequest_single_iff {r : Request} {app number : String} (get : r.method = "GET")
    (target : r.target.toList = singleStart ++ (app.toList ++ '/' :: number.toList))
    (filled : number.toList ≠ []) (literal : Literal number) :
    ofRequest r = .ok (.single app number) ↔ Literal app := by
  have whole (text : String) : decode? text.toList = some text ↔
      Text.hasEscape text.toList = false := by
    have decoded : decode? text.toList = some (String.ofList text.toList) ↔ _ :=
      decode?_eq_some
    rw [String.ofList_toList] at decoded
    exact decoded.trans (Text.percentDecode_bytes _)
  rw [ofRequest_single get (path_of_single target)]
  simp only [parameters?_eq_some]
  constructor
  · rintro ⟨first, second, ⟨split, slash, _⟩, decoded, _⟩
    rw [← String.ofList_toList (s := app)] at decoded
    have front : first <+: app.toList ++ '/' :: number.toList :=
      (split ▸ List.prefix_append first _).trans (List.takeWhile_prefix _)
    cases eq_of_decode? (before_slash slash front) decoded
    have kept : ∀ c ∈ app.toList, (c != '?' && c != '#') = true := by
      intro c member
      have among : c ∈ (app.toList ++ '/' :: number.toList).takeWhile
          fun c => c != '?' && c != '#' := split ▸ List.mem_append_left _ member
      have passes := List.mem_takeWhile_imp among
      exact passes
    rw [String.ofList_toList] at decoded
    refine ⟨slash, fun member => ?_, fun member => ?_, (whole app).1 decoded⟩
    · exact absurd (kept _ member) (by decide)
    · exact absurd (kept _ member) (by decide)
  · intro fits
    have run : ∀ c ∈ app.toList ++ '/' :: number.toList, (c != '?' && c != '#') = true := by
      intro c member
      rw [Bool.and_eq_true, bne_iff_ne, bne_iff_ne]
      rcases List.mem_append.1 member with left | right
      · exact ⟨fun same => fits.query (same ▸ left), fun same => fits.fragment (same ▸ left)⟩
      · rcases List.mem_cons.1 right with rfl | right
        · decide
        · refine ⟨fun same => ?_, fun same => ?_⟩
          · exact literal.query (same ▸ right)
          · exact literal.fragment (same ▸ right)
    rw [List.takeWhile_eq_self_iff.2 run]
    exact ⟨_, _, ⟨rfl, fits.slash, filled, literal.slash⟩, (whole app).2 fits.escape,
      (whole number).2 literal.escape⟩

theorem leads_iff {carries : Char → Bool} (start : ∀ c ∈ singleStart, carries c = true)
    {r : Request} {app number : String} (get : r.method = "GET")
    (target : r.target.toList = singleStart ++ (app.toList ++ '/' :: number.toList))
    (plain : Plain carries number) : Leads carries r app number ↔ Plain carries app := by
  have written : number.toList ≠ [] := fun empty => plain.filled (String.toList_eq_nil_iff.1 empty)
  have routed := ofRequest_single_iff get target written plain.toLiteral
  constructor
  · rintro ⟨carried, route, filled, _⟩
    refine ⟨routed.1 route, filled, fun c member => carried c ?_⟩
    rw [target]
    exact List.mem_append_right _ (List.mem_append_left _ member)
  · intro fits
    refine ⟨fun c member => ?_, routed.2 fits.toLiteral, fits.filled, plain.filled⟩
    rw [target, List.mem_append, List.mem_append, List.mem_cons] at member
    rcases member with before | own | rfl | after
    · exact start c before
    · exact fits.carried c own
    · exact start '/' (by decide)
    · exact plain.carried c after

end Route
end MetricGateway
