import BufferPlan.Proofs.Json.Value

/-!
# Objects as they stand in a text

Two readers of an object may tell its names apart by what stands between the quotes, and not only
by what is meant. So the text of an object is described here by its members, each with its name as
it is spelled there and with its value; blanks may stand wherever they may stand at all.

* `Raw`: what may stand between the quotes of a string. `Raw.plain?_eq_some_iff`: digits stand
  there for themselves only.
* `MemberText`, `MembersText`, `ObjectText`: the text of a member, of what is between the braces and
  of an object.
* **`ObjectText.exists_writtenAs`**: such a text writes an object with these members.
* **`Value.compact_object`**: the text without blanks that is written for an object.
-/

namespace BufferPlan.Json

/-! ## Between the quotes -/

/-- The text may stand between the quotes of a string of these parts. -/
def Raw (ps : List Piece) (w : List Char) : Prop :=
  ∃ parts, List.Forall₂ Piece.Spelled ps parts ∧ w = parts.flatten

theorem raw_cons_iff {p : Piece} {ps : List Piece} {w : List Char} :
    Raw (p :: ps) w ↔ ∃ x y, p.Spelled x ∧ Raw ps y ∧ w = x ++ y := by
  constructor
  · rintro ⟨_, h, rfl⟩
    obtain ⟨x, parts, hx, hparts, rfl⟩ := List.forall₂_cons_left_iff.mp h
    exact ⟨x, parts.flatten, hx, ⟨parts, hparts, rfl⟩, rfl⟩
  · rintro ⟨x, _, hx, ⟨parts, hparts, rfl⟩, rfl⟩
    exact ⟨x :: parts, .cons hx hparts, rfl⟩

namespace Piece.Spelled

variable {c : Char} {p : Piece} {x : List Char}

/-- A digit has no other spelling. -/
theorem eq_of_isDigit (h : (char c).Spelled x) (hc : c.isDigit = true) : x = [c] := by
  cases h with
  | plain => rfl
  | short hmem =>
    have no_digit : ∀ e ∈ shortEscapes, e.2.isDigit = false := by decide
    rw [no_digit _ hmem] at hc
    cases hc

/-- Digits spell nothing but digits. -/
theorem exists_of_isDigit (h : p.Spelled x) (hx : ∀ c ∈ x, c.isDigit = true) :
    ∃ c, p = char c ∧ x = [c] := by
  cases h with
  | plain => exact ⟨_, rfl, rfl⟩
  | short | digits => exact absurd (hx _ List.mem_cons_self) (by decide)

end Piece.Spelled

/-- **Digits stand for themselves only**: a string has digits for its characters exactly if they
stand between its quotes. -/
theorem Raw.plain?_eq_some_iff {ps : List Piece} {w ds : List Char} (h : Raw ps w)
    (hds : ∀ d ∈ ds, d.isDigit = true) : plain? ps = some ds ↔ w = ds := by
  induction ps generalizing w ds with
  | nil =>
    obtain ⟨_, h, rfl⟩ := h
    obtain rfl := List.forall₂_nil_left_iff.mp h
    exact Option.some_inj
  | cons p ps ih =>
    obtain ⟨x, y, hx, hy, rfl⟩ := raw_cons_iff.mp h
    constructor
    · intro hplain
      cases p with
      | unit => cases hplain
      | char c =>
        obtain ⟨es, hes, rfl⟩ := Option.map_eq_some_iff.mp hplain
        obtain ⟨hc, hall⟩ := List.forall_mem_cons.mp hds
        rw [hx.eq_of_isDigit hc, (ih hy hall).mp hes]
        rfl
    · rintro rfl
      obtain ⟨hdx, hdy⟩ := List.forall_mem_append.mp hds
      obtain ⟨c, rfl, rfl⟩ := hx.exists_of_isDigit hdx
      exact Option.map_eq_some_iff.mpr ⟨y, (ih hy hdy).mpr rfl, rfl⟩

/-! ## The text of an object -/

/-- The text of a member, from its name as it is spelled and its value. -/
inductive MemberText : List Char × Value → List Char → Prop where
  | mk {ps : List Piece} {key before behind text : List Char} {v : Value} (hkey : Raw ps key)
    (hbefore : Blanks before) (hbehind : Blanks behind) (hv : Spells v.tokens text) :
    MemberText (key, v) (before ++ '"' :: (key ++ '"' :: (behind ++ ':' :: text)))

/-- The text between the braces of an object with these members. -/
inductive MembersText : List (List Char × Value) → List Char → Prop where
  | nil {blanks : List Char} (hblanks : Blanks blanks) : MembersText [] blanks
  | singleton {m : List Char × Value} {text : List Char} (hm : MemberText m text) :
    MembersText [m] text
  | cons {m n : List Char × Value} {ms : List (List Char × Value)} {text rest : List Char}
    (hm : MemberText m text) (hrest : MembersText (n :: ms) rest) :
    MembersText (m :: n :: ms) (text ++ ',' :: rest)

/-- The text of an object with these members. -/
def ObjectText (members : List (List Char × Value)) (s : String) : Prop :=
  ∃ before inner behind, s.toList = before ++ '\x7b' :: (inner ++ '\x7d' :: behind) ∧
    Blanks before ∧ Blanks behind ∧ MembersText members inner

/-- What is written for a member: its name may stand so between the quotes, and it has this value. -/
def SpelledMember (m : List Piece × Value) (w : List Char × Value) : Prop :=
  Raw m.1 w.1 ∧ m.2 = w.2

theorem blanks_append {a b : List Char} (ha : Blanks a) (hb : Blanks b) : Blanks (a ++ b) :=
  List.forall_mem_append.mpr ⟨ha, hb⟩

theorem blanks_nil : Blanks [] := List.forall_mem_nil _

/-- Blanks may stand in front. -/
theorem Spells.blanks_append {ts : List Token} {blanks s : List Char} (h : Spells ts s)
    (hblanks : Blanks blanks) : Spells ts (blanks ++ s) := by
  cases h with
  | nil h => exact .nil (Json.blanks_append hblanks h)
  | cons h hw hrest =>
    rw [← List.append_assoc]
    exact .cons (Json.blanks_append hblanks h) hw hrest

/-- Texts may be put one behind the other. -/
theorem Spells.append {ts us : List Token} {s t : List Char} (hs : Spells ts s)
    (ht : Spells us t) : Spells (ts ++ us) (s ++ t) := by
  induction hs with
  | nil hblanks => exact ht.blanks_append hblanks
  | cons hblanks hw _ ih =>
    rw [List.append_assoc, List.append_assoc]
    exact .cons hblanks hw ih

/-- The tokens of an object behind the opening brace. -/
def Value.innerTokens : List (List Piece × Value) → List Token
  | [] => [.endObject]
  | (key, v) :: ms => .string key :: .colon :: (tokens v ++ memberTokens ms)

theorem Value.tokens_object (ms : List (List Piece × Value)) :
    (object ms).tokens = .beginObject :: innerTokens ms := by
  cases ms <;> rw [tokens] <;> rfl

theorem Value.memberTokens_cons (m : List Piece × Value) (ms : List (List Piece × Value)) :
    memberTokens (m :: ms) = .comma :: innerTokens (m :: ms) := by
  rw [memberTokens]
  rfl

/-- A member is spelled as its three tokens, whatever follows them. -/
theorem MemberText.exists_spells {w : List Char × Value} {text : List Char}
    (h : MemberText w text) : ∃ m, SpelledMember m w ∧ ∀ {ts : List Token} {rest : List Char},
      Spells ts rest → Spells (.string m.1 :: .colon :: (m.2.tokens ++ ts)) (text ++ rest) := by
  obtain @⟨ps, key, before, behind, text, v, hkey, hbefore, hbehind, hv⟩ := h
  refine ⟨(ps, v), ⟨hkey, rfl⟩, fun hrest => ?_⟩
  obtain ⟨parts, hparts, rfl⟩ := hkey
  have hname : (Token.string ps).Spelled ('"' :: (parts.flatten ++ ['"'])) := ⟨parts, hparts, rfl⟩
  have hcolon : Token.colon.Spelled [':'] := rfl
  have hspells := Spells.cons hbefore hname (.cons hbehind hcolon (hv.append hrest))
  simpa using hspells

/-- What is between the braces is spelled as the tokens there. -/
theorem MembersText.exists_spells {members : List (List Char × Value)} {inner behind : List Char}
    (h : MembersText members inner) (hbehind : Blanks behind) :
    ∃ ms, List.Forall₂ SpelledMember ms members ∧
      Spells (Value.innerTokens ms) (inner ++ '\x7d' :: behind) := by
  have hbrace : Token.endObject.Spelled ['\x7d'] := rfl
  have hcomma : Token.comma.Spelled [','] := rfl
  have hend : Spells [.endObject] ('\x7d' :: behind) := .cons blanks_nil hbrace (.nil hbehind)
  induction h with
  | nil hblanks => exact ⟨[], .nil, hend.blanks_append hblanks⟩
  | singleton hm =>
    obtain ⟨m, hspelled, hspells⟩ := hm.exists_spells
    refine ⟨[m], .cons hspelled .nil, ?_⟩
    rw [Value.innerTokens, Value.memberTokens]
    exact hspells hend
  | cons hm _ ih =>
    obtain ⟨m, hspelled, hspells⟩ := hm.exists_spells
    obtain ⟨ms, hms, hrest⟩ := ih
    refine ⟨m :: ms, .cons hspelled hms, ?_⟩
    obtain ⟨n, ms, -, -, rfl⟩ := List.forall₂_cons_right_iff.mp hms
    rw [Value.innerTokens, Value.memberTokens_cons, List.append_assoc]
    exact hspells (.cons blanks_nil hcomma hrest)

/-- **The text of an object writes an object with its members.** -/
theorem ObjectText.exists_writtenAs {members : List (List Char × Value)} {s : String}
    (h : ObjectText members s) :
    ∃ ms, List.Forall₂ SpelledMember ms members ∧ (Value.object ms).WrittenAs s := by
  obtain ⟨before, inner, behind, hs, hbefore, hbehind, hinner⟩ := h
  obtain ⟨ms, hms, hspells⟩ := hinner.exists_spells hbehind
  refine ⟨ms, hms, ?_⟩
  have hbrace : Token.beginObject.Spelled ['\x7b'] := rfl
  rw [Value.WrittenAs, hs, Value.tokens_object]
  exact .cons hbefore hbrace hspells

/-! ## The text without blanks -/

namespace Value

/-- The text of a member without blanks. -/
def compactMember (m : List Piece × Value) : String :=
  String.ofList (Token.text (.string m.1)) ++ ":" ++ m.2.compact

theorem toList_compactMember (m : List Piece × Value) :
    (compactMember m).toList =
      Token.text (.string m.1) ++ ':' :: m.2.tokens.flatMap Token.text := by
  simp [compactMember, compact]

theorem flatMap_innerTokens (ms : List (List Piece × Value)) :
    (innerTokens ms).flatMap Token.text =
      [','].intercalate (ms.map fun m => (compactMember m).toList) ++ ['\x7d'] := by
  induction ms with
  | nil => rfl
  | cons m ms ih =>
    cases ms with
    | nil => simp [innerTokens, memberTokens, toList_compactMember, Token.text]
    | cons n ms =>
      rw [innerTokens, memberTokens_cons]
      simp [ih, toList_compactMember, Token.text]

/-- **The text without blanks that is written for an object.** -/
theorem compact_object (ms : List (List Piece × Value)) :
    (object ms).compact = "\x7b" ++ ",".intercalate (ms.map compactMember) ++ "\x7d" := by
  rw [← String.toList_inj, compact, tokens_object, String.toList_ofList, List.flatMap_cons,
    flatMap_innerTokens]
  simp [Token.text, Function.comp_def]

end Value

end BufferPlan.Json
