import BufferPlan.Proofs.Json.Parts
import BufferPlan.Proofs.MapText
import BufferPlan.Proofs.Records

/-!
# Records and maps by the texts of their parts

A field of a record, or a value of a map, is read from the piece of the text that stands for it, and
as that piece is read alone: what is around it, a bracket, a comma or another field, has no part in
it. So a reader of documents is told by the readers of what is in them, for the texts that it
refuses as well as for those that it takes.

* `ReadByParts`: a reader takes only texts that have parts, and what it makes of a text is what its
  parts say.
* `RecordOf`: the text of a record, by the texts of its fields, which is an object or an array.
  `MapOf`: the text of a map, by the texts of its members.
* `Once`: what is written at most once.
* **`AnyLayout.readByParts`**: a record is read as the value of which the text of every field says
  what is so.
* **`EdgeMap.readByParts`**: a map is read as the entries that its members say.
-/

namespace BufferPlan

open Json (Value Piece Fields ArrayOf ObjectOf)
open Text.Decimal (Canonical)

variable {α γ : Type} {read : Value → Option α} {a : α} {s : String}

/-! ## Texts and their parts -/

/-- The text writes a value. -/
def JsonText (s : String) : Prop := ∃ v : Value, v.WrittenAs s

/-- A text is read by the parts that it is put together from. -/
structure ReadByParts (Parts : γ → String → Prop) (Said : γ → α → Prop)
    (read : Value → Option α) : Prop where
  /-- A text that cannot be put together so is refused. -/
  has_parts : ∀ s a, readText read s = some a → ∃ parts, Parts parts s
  /-- Any other is read as what its parts say, and refused if they say nothing. -/
  eq_some_iff : ∀ s parts, Parts parts s → ∀ a, readText read s = some a ↔ Said parts a

theorem ReadByParts.congr {Parts : γ → String → Prop} {Said Said' : γ → α → Prop}
    (h : ReadByParts Parts Said read) (hsaid : ∀ parts a, Said parts a ↔ Said' parts a) :
    ReadByParts Parts Said' read where
  has_parts := h.has_parts
  eq_some_iff s parts hparts a := (h.eq_some_iff s parts hparts a).trans (hsaid parts a)

/-- A text is read if it writes a value that is read, and not otherwise. -/
theorem readText_eq_some_iff_writtenAs :
    readText read s = some a ↔ ∃ v : Value, v.WrittenAs s ∧ read v = some a := by
  rw [readText, Option.bind_eq_some_iff]
  simp only [Value.parse?_eq_some_iff]

theorem readText_of_writtenAs {v : Value} (h : v.WrittenAs s) : readText read s = read v := by
  rw [readText, Value.parse?_of_writtenAs h, Option.bind_some]

theorem exists_forall₂ {β : Type} {R : α → β → Prop} {l : List α} (h : ∀ a ∈ l, ∃ b, R a b) :
    ∃ l', List.Forall₂ R l l' := by
  induction l with
  | nil => exact ⟨[], .nil⟩
  | cons a l ih =>
    obtain ⟨⟨b, hb⟩, hl⟩ := List.forall_mem_cons.mp h
    obtain ⟨l', hl'⟩ := ih hl
    exact ⟨b :: l', .cons hb hl'⟩

/-! ## The text of a record -/

/-- What stands between the quotes means the name. -/
def NameText (w : List Char) (name : String) : Prop :=
  ∃ ps, Json.Raw ps w ∧ Json.name? ps = some name

/-- The name of the member means that of the field, and its text is that of the field. -/
def SpellsField (m : List Char × String) (f : String × String) : Prop :=
  NameText m.1 f.1 ∧ m.2 = f.2

/-- The text of a record, by the names of its fields and their texts: an object whose members mean
these names, or an array of the first fields, at least `least` of them. -/
inductive RecordOf (names : List String) (least : Nat) :
    List (String × String) → String → Prop where
  | object {members : List (List Char × String)} {fields : List (String × String)} {s : String}
    (hs : ObjectOf members s) (hfields : List.Forall₂ SpellsField members fields)
    (hjson : ∀ f ∈ fields, JsonText f.2) : RecordOf names least fields s
  | array {items : List String} {s : String} (hs : ArrayOf items s) (hleast : least ≤ items.length)
    (hmost : items.length ≤ names.length) (hjson : ∀ item ∈ items, JsonText item) :
    RecordOf names least (names.zip items) s

/-- The texts write these values, name by name. -/
def WritesFields : List (String × String) → Fields → Prop :=
  List.Forall₂ fun f n => f.1 = n.1 ∧ n.2.WrittenAs f.2

/-- The fields of a value, be it an object or an array. -/
inductive HasFields (names : List String) (least : Nat) : Value → Fields → Prop where
  | object {v : Value} {named : Fields} (h : v.Lists named) : HasFields names least v named
  | array {items : List Value} (hleast : least ≤ items.length)
    (hmost : items.length ≤ names.length) :
    HasFields names least (.array items) (names.zip items)

section

variable {names : List String} {least : Nat} {v : Value} {named : Fields}
  {fields : List (String × String)}

theorem WritesFields.jsonText (h : WritesFields fields named) : ∀ f ∈ fields, JsonText f.2 := by
  intro f hf
  obtain ⟨n, -, -, hn⟩ := Json.exists_mem_of_forall₂ h hf
  exact ⟨n.2, hn⟩

theorem RecordOf.exists_writesFields (h : RecordOf names least fields s) :
    ∃ named, WritesFields fields named := by
  have hjson : ∀ f ∈ fields, JsonText f.2 := by
    intro f hf
    cases h with
    | object _ _ hjson => exact hjson f hf
    | array _ _ _ hjson => exact hjson f.2 (List.of_mem_zip hf).2
  refine exists_forall₂ fun f hf => ?_
  obtain ⟨v, hv⟩ := hjson f hf
  exact ⟨(f.1, v), rfl, hv⟩

/-- An object with these fields is written with members that mean their names. -/
theorem exists_lists_iff :
    (∃ v : Value, v.WrittenAs s ∧ v.Lists named) ↔ ∃ members, ObjectOf members s ∧
      ∃ fields, List.Forall₂ SpellsField members fields ∧ WritesFields fields named := by
  -- either way round, the name is spelled between the quotes and the value is written behind them
  have hcomp : Relation.Comp Json.WritesPair (fun m n => Json.name? m.1 = some n.1 ∧ m.2 = n.2) =
      Relation.Comp SpellsField fun f n : _ × _ => f.1 = n.1 ∧ n.2.WrittenAs f.2 := by
    ext w n
    constructor
    · rintro ⟨m, ⟨hraw, hvalue⟩, hname, hn⟩
      exact ⟨(n.1, w.2), ⟨⟨m.1, hraw, hname⟩, rfl⟩, rfl, hn ▸ hvalue⟩
    · rintro ⟨f, ⟨⟨ps, hraw, hname⟩, hvalue⟩, hfield, hn⟩
      exact ⟨(ps, n.2), ⟨hraw, hvalue ▸ hn⟩, hfield ▸ hname, rfl⟩
  constructor
  · rintro ⟨v, hv, ms, rfl, hnamed⟩
    obtain ⟨members, hobject, hms⟩ := Value.writtenAs_object_iff.mp hv
    have hmembers := Json.forall₂_comp_iff.mpr ⟨ms, hms, hnamed⟩
    rw [hcomp] at hmembers
    exact ⟨members, hobject, Json.forall₂_comp_iff.mp hmembers⟩
  · rintro ⟨members, hobject, hfields⟩
    have hmembers := Json.forall₂_comp_iff.mpr hfields
    rw [← hcomp] at hmembers
    obtain ⟨ms, hms, hnamed⟩ := Json.forall₂_comp_iff.mp hmembers
    exact ⟨_, Value.writtenAs_object_iff.mpr ⟨members, hobject, hms⟩, ms, rfl, hnamed⟩

theorem writesFields_zip_iff {items : List String} (hmost : items.length ≤ names.length) :
    WritesFields (names.zip items) named ↔
      ∃ vs, List.Forall₂ (fun item v => v.WrittenAs item) items vs ∧ named = names.zip vs := by
  induction items generalizing names named with
  | nil => simp [WritesFields]
  | cons item items ih =>
    obtain ⟨name, names, rfl⟩ := List.exists_cons_of_length_pos (Nat.zero_lt_of_lt hmost)
    rw [WritesFields, List.zip_cons_cons, List.forall₂_cons_left_iff]
    constructor
    · rintro ⟨n, named, ⟨rfl, hn⟩, hnamed, rfl⟩
      obtain ⟨vs, hvs, rfl⟩ := (ih (Nat.le_of_succ_le_succ hmost)).mp hnamed
      exact ⟨n.2 :: vs, .cons hn hvs, rfl⟩
    · rintro ⟨_, hvs, rfl⟩
      obtain ⟨v, vs, hv, hrest, rfl⟩ := List.forall₂_cons_left_iff.mp hvs
      exact ⟨(name, v), names.zip vs, ⟨rfl, hv⟩,
        (ih (Nat.le_of_succ_le_succ hmost)).mpr ⟨vs, hrest, rfl⟩, rfl⟩

/-- **The text of a record** is one that writes a value with fields. -/
theorem exists_hasFields_iff :
    (∃ v : Value, v.WrittenAs s ∧ HasFields names least v named) ↔
      ∃ fields, RecordOf names least fields s ∧ WritesFields fields named := by
  constructor
  · rintro ⟨v, hv, hlists | ⟨hleast, hmost⟩⟩
    · obtain ⟨members, hs, fields, hfields, hwrites⟩ := exists_lists_iff.mp ⟨v, hv, hlists⟩
      exact ⟨fields, .object hs hfields hwrites.jsonText, hwrites⟩
    · obtain ⟨items, hs, hitems⟩ := Value.writtenAs_array_iff.mp hv
      rw [← hitems.length_eq] at hleast hmost
      have hjson : ∀ item ∈ items, JsonText item := fun item hitem => by
        obtain ⟨v, -, hv⟩ := Json.exists_mem_of_forall₂ hitems hitem
        exact ⟨v, hv⟩
      exact ⟨_, .array hs hleast hmost hjson, (writesFields_zip_iff hmost).mpr ⟨_, hitems, rfl⟩⟩
  · rintro ⟨fields, ⟨hs, hfields, hjson⟩ | ⟨hs, hleast, hmost, hjson⟩, hwrites⟩
    · obtain ⟨v, hv, hlists⟩ := exists_lists_iff.mpr ⟨_, hs, _, hfields, hwrites⟩
      exact ⟨v, hv, .object hlists⟩
    · obtain ⟨vs, hitems, rfl⟩ := (writesFields_zip_iff hmost).mp hwrites
      rw [hitems.length_eq] at hleast hmost
      exact ⟨.array vs, Value.writtenAs_array_iff.mpr ⟨_, hs, hitems⟩, .array hleast hmost⟩

/-- A value has fields if the reader of records finds some in it. -/
theorem exists_hasFields {found : Fields} (h : v.fields? names least = some found) :
    ∃ named, HasFields names least v named := by
  cases v with
  | array items =>
    obtain ⟨⟨hleast, hmost⟩, -⟩ := Option.ite_none_right_eq_some.mp h
    exact ⟨_, .array hleast hmost⟩
  | object members =>
    obtain ⟨named, hnamed, -⟩ := Option.bind_eq_some_iff.mp h
    refine ⟨named, .object ⟨members, rfl, (Json.mapM_eq_some_iff_forall₂.mp hnamed).imp ?_⟩⟩
    rintro m n hmn
    obtain ⟨name, hname, rfl⟩ := Option.map_eq_some_iff.mp hmn
    exact ⟨hname, rfl⟩
  | _ => cases h

end

/-! ## What a record is read as -/

/-- What is written at most once: it is missing, or there is one text that fits. -/
def Once (missing : Prop) (fits : String → Prop) : List String → Prop
  | [] => missing
  | [text] => fits text
  | _ => False

theorem Once.congr {missing missing' : Prop} {fits fits' : String → Prop}
    (hmissing : missing ↔ missing') (hfits : ∀ text, fits text ↔ fits' text) (texts : List String) :
    Once missing fits texts ↔ Once missing' fits' texts := by
  match texts with
  | [] => exact hmissing
  | [text] => exact hfits text
  | _ :: _ :: _ => rfl

/-- The texts of the fields of one name. -/
def textsOf (name : String) (fields : List (String × String)) : List String :=
  (fields.filter fun f => f.1 == name).map Prod.snd

namespace Rule

variable {r : Rule α} {named : Fields} {fields : List (String × String)}

/-- The texts of the fields say what the rule wants to hold of the value. -/
def SaysIn (r : Rule α) (fields : List (String × String)) (a : α) : Prop :=
  Once (∃ b, r.missing = some b ∧ r.Holds b a)
    (fun text => ∃ b, readText r.read text = some b ∧ r.Holds b a) (textsOf r.name fields)

/-- The members of a name are read as their texts are. -/
theorem readings_eq_map (r : Rule α) (h : WritesFields fields named) :
    r.readings named = (textsOf r.name fields).map (readText r.read) := by
  induction h with
  | nil => rfl
  | @cons f n fields named hfn _ ih =>
    obtain ⟨hname, hvalue⟩ := hfn
    have hread : readText r.read f.2 = r.read n.2 := readText_of_writtenAs hvalue
    by_cases hr : f.1 = r.name
    · simp_all [readings, textsOf]
    · simp_all [readings, textsOf]

/-- What the members of an object say of a field is said by their texts. -/
theorem saysIn_iff (h : WritesFields fields named) :
    r.SaysIn fields a ↔ ∃ b, r.said? named = some b ∧ r.Holds b a := by
  rw [SaysIn, said?, r.readings_eq_map h]
  -- none, one or more texts
  rcases textsOf r.name fields with _ | ⟨text, _ | ⟨text', texts⟩⟩
  · rfl
  · rfl
  · simp [Once]

/-- A field that is a part of the value has its default or is what its text is read as. -/
theorem saysIn_part_iff {name : String} {β : Type} {read : Value → Option β} {b : β} {get : α → β} :
    (part name read (some b) get).SaysIn fields a ↔
      Once (get a = b) (fun text => readText read text = some (get a)) (textsOf name fields) := by
  refine Once.congr ?_ (fun text => ?_) _ <;> simp [part, eq_comm]

end Rule

/-- The texts of the fields say of the value what all the rules want to hold. -/
def SaidByRules (rules : List (Rule α)) (fields : List (String × String)) (a : α) : Prop :=
  ∀ r ∈ rules, r.SaysIn fields a

namespace AnyLayout

variable {rules : List (Rule α)} {least : Nat} {v : Value} {named : Fields}

theorem eq_some_iff_of_hasFields (h : AnyLayout rules least read)
    (hv : HasFields (rules.map Rule.name) least v named) :
    read v = some a ↔ ∀ r ∈ rules, ∃ b, r.said? named = some b ∧ r.Holds b a := by
  cases hv with
  | object hv => exact h.eq_some_iff v named hv a
  | @array items hleast hmost =>
    have hv := Value.lists_record ((rules.map Rule.name).zip items)
    rw [List.length_map] at hmost
    rw [h.array items _ hleast hmost hv, h.eq_some_iff _ _ hv]

/-- **A record is read as the value of which the text of every field says what is so.** -/
theorem readByParts {make : Fields → Option α}
    (h : AnyLayout rules least fun v => (v.fields? (rules.map Rule.name) least).bind make) :
    ReadByParts (RecordOf (rules.map Rule.name) least) (SaidByRules rules) fun v =>
      (v.fields? (rules.map Rule.name) least).bind make where
  has_parts s a hs := by
    obtain ⟨v, hv, hread⟩ := readText_eq_some_iff_writtenAs.mp hs
    obtain ⟨found, hfound, -⟩ := Option.bind_eq_some_iff.mp hread
    obtain ⟨named, hnamed⟩ := exists_hasFields hfound
    obtain ⟨fields, hrecord, -⟩ := exists_hasFields_iff.mp ⟨v, hv, hnamed⟩
    exact ⟨fields, hrecord⟩
  eq_some_iff s fields hrecord a := by
    obtain ⟨named, hwrites⟩ := hrecord.exists_writesFields
    obtain ⟨v, hv, hnamed⟩ := exists_hasFields_iff.mpr ⟨fields, hrecord, hwrites⟩
    rw [readText_of_writtenAs hv]
    refine (h.eq_some_iff_of_hasFields hnamed).trans ?_
    exact forall₂_congr fun r _ => (Rule.saysIn_iff hwrites).symm

end AnyLayout

/-! ## What a map is read as -/

/-- The text of a map, by the names of its members as they are spelled and their texts. -/
structure MapOf (members : List (List Char × String)) (s : String) : Prop where
  object : ObjectOf members s
  legible : ∀ m ∈ members, (∃ ps, Json.Raw ps m.1) ∧ JsonText m.2

namespace EdgeMap

/-- A member says what an entry is: its name is the decimal of the id, and its text is read as the
value. -/
def SaysEntry (read : Value → Option α) (m : List Char × String) (e : EdgeId × α) : Prop :=
  Canonical m.1 e.1.raw.toNat ∧ readText read m.2 = some e.2

/-- The members make a map when what they say is written into an empty one from left to right. -/
def SaidBy (read : Value → Option α) (members : List (List Char × String)) (m : EdgeMap α) : Prop :=
  ∃ entries, List.Forall₂ (SaysEntry read) members entries ∧ ofList entries = m

/-- **A map is read as what its members say**, each by itself. -/
theorem readByParts (read : Value → Option α) :
    ReadByParts MapOf (SaidBy read) (ofValue? read) where
  has_parts s m hs := by
    obtain ⟨v, hv, hread⟩ := readText_eq_some_iff_writtenAs.mp hs
    cases v with
    | object ms =>
      obtain ⟨members, hobject, hms⟩ := Value.writtenAs_object_iff.mp hv
      refine ⟨members, hobject, fun w hw => ?_⟩
      obtain ⟨m, -, hraw, hvalue⟩ := Json.exists_mem_of_forall₂ hms hw
      exact ⟨⟨m.1, hraw⟩, m.2, hvalue⟩
    | _ => cases hread
  eq_some_iff s members hmembers m := by
    obtain ⟨ms, hms⟩ : ∃ ms, List.Forall₂ Json.WritesPair members ms := by
      refine exists_forall₂ fun w hw => ?_
      obtain ⟨⟨ps, hraw⟩, v, hv⟩ := hmembers.legible w hw
      exact ⟨(ps, v), hraw, hv⟩
    have hobject := Value.writtenAs_object_iff.mpr ⟨members, hmembers.object, hms⟩
    rw [readText_of_writtenAs hobject, ofValue?_object_eq_some_iff]
    refine exists_congr fun entries => and_congr_left' ?_
    refine (Json.forall₂_congr_left (fun w m e hwm => ?_) hms).symm
    obtain ⟨hraw, hv⟩ := hwm
    rw [SaysEntry, EdgeId.ofKey?_eq_some_iff hraw, readText_of_writtenAs hv]

end EdgeMap

end BufferPlan
