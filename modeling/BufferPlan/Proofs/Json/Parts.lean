import BufferPlan.Proofs.Json.Grammar

/-!
# Texts by their parts

A text writes an array or an object if it is put together from texts that write the items or the
values of the members, with nothing but commas, colons and blanks around them. So what a part of a
text is read as does not depend on where it stands: it is what the part would be read as alone.

* `Alone`: one token between blanks. `Value.writtenAs_number_iff`, `Value.writtenAs_null_iff`: the
  texts of numbers and of null.
* `Listed`, `ArrayOf`, `ObjectOf`: texts with commas between them, and in brackets and braces.
* **`Value.writtenAs_array_iff`**, **`Value.writtenAs_object_iff`**: the texts of arrays and of
  objects.
-/

namespace BufferPlan.Json

variable {s : List Char} {ts us : List Token} {t : Token}

/-! ## One token -/

/-- The text is the word with blanks around it. -/
def Alone (word : List Char) (text : String) : Prop :=
  ∃ before behind, text.toList = before ++ (word ++ behind) ∧ Blanks before ∧ Blanks behind

theorem spells_nil_iff : Spells [] s ↔ Blanks s :=
  ⟨fun h => by cases h; assumption, .nil⟩

theorem spells_cons_iff :
    Spells (t :: ts) s ↔ ∃ blanks w rest, s = blanks ++ (w ++ rest) ∧ Blanks blanks ∧ t.Spelled w ∧
      Spells ts rest := by
  constructor
  · intro h
    cases h with
    | cons hblanks hw hrest => exact ⟨_, _, _, rfl, hblanks, hw, hrest⟩
  · rintro ⟨blanks, w, rest, rfl, hblanks, hw, hrest⟩
    exact .cons hblanks hw hrest

namespace Value

variable {text : String} {ds : List Char}

theorem writtenAs_number_iff : (number ds).WrittenAs text ↔ Numeral ds ∧ Alone ds text := by
  rw [WrittenAs, tokens, spells_cons_iff]
  constructor
  · rintro ⟨before, w, behind, htext, hbefore, ⟨hds, rfl⟩, hbehind⟩
    exact ⟨hds, before, behind, htext, hbefore, spells_nil_iff.mp hbehind⟩
  · rintro ⟨hds, before, behind, htext, hbefore, hbehind⟩
    exact ⟨before, ds, behind, htext, hbefore, ⟨hds, rfl⟩, .nil hbehind⟩

theorem writtenAs_null_iff : null.WrittenAs text ↔ Alone ['n', 'u', 'l', 'l'] text := by
  rw [WrittenAs, tokens, spells_cons_iff]
  constructor
  · rintro ⟨before, w, behind, htext, hbefore, rfl, hbehind⟩
    exact ⟨before, behind, htext, hbefore, spells_nil_iff.mp hbehind⟩
  · rintro ⟨before, behind, htext, hbefore, hbehind⟩
    exact ⟨before, _, behind, htext, hbefore, rfl, .nil hbehind⟩

end Value

/-! ## Lists with commas -/

theorem exists_spells_append_iff :
    Spells (ts ++ us) s ↔ ∃ a b, s = a ++ b ∧ Spells ts a ∧ Spells us b := by
  constructor
  · intro h
    induction ts generalizing s with
    | nil => exact ⟨[], s, rfl, .nil blanks_nil, h⟩
    | cons t ts ih =>
      obtain ⟨blanks, w, rest, rfl, hblanks, hw, hrest⟩ := spells_cons_iff.mp h
      obtain ⟨a, b, rfl, ha, hb⟩ := ih hrest
      exact ⟨blanks ++ (w ++ a), b, by simp, .cons hblanks hw ha, hb⟩
  · rintro ⟨a, b, rfl, ha, hb⟩
    exact ha.append hb

/-- A mark with a text of its own parts the text around it. The blanks in front of the mark go with
what stands before them. -/
theorem spells_append_mark_iff {c : Char} (ht : ∀ w, t.Spelled w ↔ w = [c]) :
    Spells (ts ++ t :: us) s ↔ ∃ a b, s = a ++ c :: b ∧ Spells ts a ∧ Spells us b := by
  rw [exists_spells_append_iff]
  constructor
  · rintro ⟨a, _, rfl, ha, hb⟩
    obtain ⟨blanks, w, b, rfl, hblanks, hw, hrest⟩ := spells_cons_iff.mp hb
    obtain rfl := (ht w).mp hw
    have hspells : Spells (ts ++ []) (a ++ blanks) := ha.append (.nil hblanks)
    exact ⟨a ++ blanks, b, by simp, by rwa [List.append_nil] at hspells, hrest⟩
  · rintro ⟨a, b, rfl, ha, hb⟩
    exact ⟨a, c :: b, rfl, ha, .cons blanks_nil ((ht [c]).mpr rfl) hb⟩

/-- Texts with commas between them, or blanks where there is no text. -/
inductive Listed : List (List Char) → List Char → Prop where
  | nil {blanks : List Char} (hblanks : Blanks blanks) : Listed [] blanks
  | singleton (w : List Char) : Listed [w] w
  | cons (w : List Char) {v : List Char} {ws : List (List Char)} {rest : List Char}
    (hrest : Listed (v :: ws) rest) : Listed (w :: v :: ws) (w ++ ',' :: rest)

/-- What is written with commas between its parts has a text for each of them. -/
theorem spells_intercalate_iff {tss : List (List Token)} :
    Spells ([.comma].intercalate tss) s ↔
      ∃ ws, Listed ws s ∧ List.Forall₂ (fun w ts => Spells ts w) ws tss := by
  induction tss generalizing s with
  | nil =>
    rw [List.intercalate_nil, spells_nil_iff]
    constructor
    · exact fun h => ⟨[], .nil h, .nil⟩
    · rintro ⟨ws, hs, hws⟩
      obtain rfl := List.forall₂_nil_right_iff.mp hws
      cases hs
      assumption
  | cons ts tss ih =>
    cases tss with
    | nil =>
      rw [List.intercalate_singleton]
      constructor
      · exact fun h => ⟨[s], .singleton s, .cons h .nil⟩
      · rintro ⟨_, hs, hws⟩
        obtain ⟨w, ws, hw, hnil, rfl⟩ := List.forall₂_cons_right_iff.mp hws
        obtain rfl := List.forall₂_nil_right_iff.mp hnil
        cases hs
        exact hw
    | cons us tss =>
      rw [List.intercalate_cons_cons, List.append_assoc, List.singleton_append,
        spells_append_mark_iff (c := ',') fun w => Iff.rfl]
      constructor
      · rintro ⟨w, rest, rfl, hw, hrest⟩
        obtain ⟨_, hlisted, hws⟩ := ih.mp hrest
        obtain ⟨v, ws, -, -, rfl⟩ := List.forall₂_cons_right_iff.mp hws
        exact ⟨w :: v :: ws, .cons w hlisted, .cons hw hws⟩
      · rintro ⟨_, hs, hws⟩
        obtain ⟨w, _, hw, htail, rfl⟩ := List.forall₂_cons_right_iff.mp hws
        obtain ⟨v, ws, -, -, rfl⟩ := List.forall₂_cons_right_iff.mp htail
        cases hs with
        | cons _ hrest => exact ⟨w, _, rfl, hw, ih.mpr ⟨_, hrest, htail⟩⟩

/-! ## Arrays and objects -/

/-- Lists are related item by item through a third one if each pair of items is through an item. -/
theorem forall₂_comp_iff {α β γ : Type} {R : α → β → Prop} {S : β → γ → Prop} {l : List α}
    {n : List γ} :
    List.Forall₂ (Relation.Comp R S) l n ↔ ∃ m, List.Forall₂ R l m ∧ List.Forall₂ S m n := by
  constructor
  · intro h
    induction h with
    | nil => exact ⟨[], .nil, .nil⟩
    | cons hac _ ih =>
      obtain ⟨b, hab, hbc⟩ := hac
      obtain ⟨bs, hR, hS⟩ := ih
      exact ⟨b :: bs, .cons hab hR, .cons hbc hS⟩
  · rintro ⟨m, hR, hS⟩
    induction hR generalizing n with
    | nil =>
      obtain rfl := List.forall₂_nil_left_iff.mp hS
      exact .nil
    | @cons a b _ _ hab _ ih =>
      obtain ⟨c, cs, hbc, htail, rfl⟩ := List.forall₂_cons_left_iff.mp hS
      exact .cons ⟨b, hab, hbc⟩ (ih htail)

/-- The text is put in brackets of a kind, with blanks around them. -/
def Within (left right : Char) (inner : List Char) (text : String) : Prop :=
  ∃ before behind, text.toList = before ++ left :: (inner ++ right :: behind) ∧
    Blanks before ∧ Blanks behind

/-- The text of an array whose items have these texts. -/
def ArrayOf (items : List String) (text : String) : Prop :=
  ∃ inner, Within '[' ']' inner text ∧ Listed (items.map String.toList) inner

/-- The text of a member, from its name as it is spelled and the text of its value, which goes up to
where the member ends. -/
def PairText (text : List Char) (m : List Char × String) : Prop :=
  ∃ before behind, text = before ++ '"' :: (m.1 ++ '"' :: (behind ++ ':' :: m.2.toList)) ∧
    Blanks before ∧ Blanks behind

/-- The text of an object whose members have names that are spelled so, and values with these
texts. -/
def ObjectOf (members : List (List Char × String)) (text : String) : Prop :=
  ∃ inner texts, Within '\x7b' '\x7d' inner text ∧ Listed texts inner ∧
    List.Forall₂ PairText texts members

/-- What stands for a member: its name may stand so between the quotes, and the text writes its
value. -/
def WritesPair (w : List Char × String) (m : List Piece × Value) : Prop :=
  Raw m.1 w.1 ∧ m.2.WrittenAs w.2

theorem spells_within_iff {t₁ t₂ : Token} (left right : Char)
    (h₁ : ∀ w, t₁.Spelled w ↔ w = [left]) (h₂ : ∀ w, t₂.Spelled w ↔ w = [right]) {text : String} :
    Spells (t₁ :: (ts ++ [t₂])) text.toList ↔ ∃ inner, Within left right inner text ∧
      Spells ts inner := by
  rw [← List.nil_append (t₁ :: _), spells_append_mark_iff h₁]
  constructor
  · rintro ⟨before, rest, htext, hbefore, hrest⟩
    obtain ⟨inner, behind, rfl, hinner, hbehind⟩ := (spells_append_mark_iff h₂).mp hrest
    exact ⟨inner, ⟨before, behind, htext, spells_nil_iff.mp hbefore, spells_nil_iff.mp hbehind⟩,
      hinner⟩
  · rintro ⟨inner, ⟨before, behind, htext, hbefore, hbehind⟩, hinner⟩
    exact ⟨before, _, htext, .nil hbefore,
      (spells_append_mark_iff h₂).mpr ⟨inner, behind, rfl, hinner, .nil hbehind⟩⟩

theorem spells_pairTokens_iff {m : List Piece × Value} :
    Spells (Value.pairTokens m) s ↔ ∃ w, PairText s w ∧ WritesPair w m := by
  rw [Value.pairTokens, spells_cons_iff]
  constructor
  · rintro ⟨before, _, _, rfl, hbefore, ⟨parts, hparts, rfl⟩, hrest⟩
    obtain ⟨behind, _, value, rfl, hbehind, rfl, hvalue⟩ := spells_cons_iff.mp hrest
    refine ⟨(parts.flatten, String.ofList value),
      ⟨before, behind, by simp [Token.text], hbefore, hbehind⟩, ⟨parts, hparts, rfl⟩, ?_⟩
    rwa [Value.WrittenAs, String.toList_ofList]
  · rintro ⟨⟨key, value⟩, ⟨before, behind, rfl, hbefore, hbehind⟩, ⟨parts, hparts, hkey⟩, hvalue⟩
    have hcolon : Token.colon.Spelled [':'] := rfl
    refine ⟨before, '"' :: (parts.flatten ++ ['"']), behind ++ ([':'] ++ value.toList), ?_, hbefore,
      ⟨parts, hparts, rfl⟩, .cons hbehind hcolon hvalue⟩
    simp only at hkey
    simp [hkey]

namespace Value

variable {text : String}

/-- **A text writes an array if it is put together from texts that write its items.** -/
theorem writtenAs_array_iff {vs : List Value} :
    (array vs).WrittenAs text ↔
      ∃ items, ArrayOf items text ∧ List.Forall₂ (fun item v => v.WrittenAs item) items vs := by
  rw [WrittenAs, tokens_array,
    spells_within_iff '[' ']' (fun w => Iff.rfl) (fun w => Iff.rfl)]
  constructor
  · rintro ⟨inner, hwithin, hinner⟩
    obtain ⟨ws, hlisted, hws⟩ := spells_intercalate_iff.mp hinner
    refine ⟨ws.map String.ofList, ⟨inner, hwithin, ?_⟩, ?_⟩
    · simpa [List.map_map, Function.comp_def] using hlisted
    · rw [List.forall₂_map_right_iff] at hws
      refine List.forall₂_map_left_iff.mpr (hws.imp fun w v hw => ?_)
      rwa [WrittenAs, String.toList_ofList]
  · rintro ⟨items, ⟨inner, hwithin, hlisted⟩, hitems⟩
    refine ⟨inner, hwithin, spells_intercalate_iff.mpr ⟨_, hlisted, ?_⟩⟩
    rwa [List.forall₂_map_left_iff, List.forall₂_map_right_iff]

/-- **A text writes an object if it is put together from texts that write its members.** -/
theorem writtenAs_object_iff {ms : List (List Piece × Value)} :
    (object ms).WrittenAs text ↔
      ∃ members, ObjectOf members text ∧ List.Forall₂ WritesPair members ms := by
  have hpairs : ∀ texts : List (List Char),
      List.Forall₂ (fun w ts => Spells ts w) texts (ms.map pairTokens) ↔
        ∃ members, List.Forall₂ PairText texts members ∧ List.Forall₂ WritesPair members ms := by
    intro texts
    rw [List.forall₂_map_right_iff, ← forall₂_comp_iff]
    simp only [spells_pairTokens_iff]
    rfl
  rw [WrittenAs, tokens_object_eq,
    spells_within_iff '\x7b' '\x7d' (fun w => Iff.rfl) (fun w => Iff.rfl)]
  simp only [spells_intercalate_iff, hpairs]
  constructor
  · rintro ⟨inner, hwithin, texts, hlisted, members, htexts, hmembers⟩
    exact ⟨members, ⟨inner, texts, hwithin, hlisted, htexts⟩, hmembers⟩
  · rintro ⟨members, ⟨inner, texts, hwithin, hlisted, htexts⟩, hmembers⟩
    exact ⟨inner, hwithin, texts, hlisted, members, htexts, hmembers⟩

end Value

end BufferPlan.Json
