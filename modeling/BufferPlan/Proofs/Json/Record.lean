import BufferPlan.Json.Record
import BufferPlan.Proofs.Json.Value

/-!
# Records read back

What the fields of a record are written as is read back: counts, a value or null, and the fields by
name if no two of them have the same. A `Plain` text stands in a string as it is.

* `name?_pieces`: a name is read from the string in which its characters stand.
* `Value.word32?_ofNat`, `Value.word64?_ofWord`: a count is read from its decimal.
* `Value.fields?_of_lists`: the fields of an object are its members of a known name, and
  `Value.fields?_record`: all the members of a record that was written.
* `Value.legible_record`: a record is legible if its names are plain and its values legible.
-/

namespace BufferPlan.Json

/-! ## Text in strings -/

/-- No character of the text needs an escape for being a control character. -/
def Plain (s : List Char) : Prop := ∀ c ∈ s, 0x20 ≤ c.toNat

instance (s : List Char) : Decidable (Plain s) :=
  List.decidableBAll (fun c : Char => 0x20 ≤ c.toNat) s

theorem legible_pieces {s : List Char} (hs : Plain s) : ∀ p ∈ pieces s, p.Legible := by
  intro p hp
  obtain ⟨c, hc, rfl⟩ := List.mem_map.mp hp
  exact Or.inl (hs c hc)

theorem text?_pieces (s : List Char) : text? (pieces s) = some s := by
  induction s with
  | nil => rfl
  | cons c s ih => rw [pieces, List.map_cons, text?, ← pieces, ih, Option.map_some]

theorem plain?_pieces (s : List Char) : plain? (pieces s) = some s := by
  induction s with
  | nil => rfl
  | cons c s ih => rw [pieces, List.map_cons, plain?, ← pieces, ih, Option.map_some]

theorem name?_pieces (s : String) : name? (pieces s.toList) = some s := by
  rw [name?, text?_pieces, Option.map_some, String.ofList_toList]

/-! ## Lists read back -/

/-- A list is read item by item. -/
theorem mapM_eq_some_of_forall₂ {α β : Type} {read : α → Option β} {l : List α} {l' : List β}
    (h : List.Forall₂ (fun a b => read a = some b) l l') : l.mapM read = some l' := by
  induction h with
  | nil => rfl
  | cons hread _ ih =>
    rw [List.mapM_cons, hread, ih]
    rfl

theorem mapM_eq_some_iff_forall₂ {α β : Type} {read : α → Option β} {l : List α} {l' : List β} :
    l.mapM read = some l' ↔ List.Forall₂ (fun a b => read a = some b) l l' := by
  refine ⟨fun h => ?_, mapM_eq_some_of_forall₂⟩
  induction l generalizing l' with
  | nil =>
    obtain rfl := Option.some.inj h
    exact .nil
  | cons a l ih =>
    rw [List.mapM_cons] at h
    obtain ⟨b, hb, h⟩ := Option.bind_eq_some_iff.mp h
    obtain ⟨bs, hbs, h⟩ := Option.bind_eq_some_iff.mp h
    obtain rfl := Option.some.inj h
    exact .cons hb (ih hbs)

/-- Lists that correspond to each other are related to the same lists, if their items are. -/
theorem forall₂_congr_left {α β γ : Type} {R : α → γ → Prop} {S : β → γ → Prop}
    {T : α → β → Prop} (hRS : ∀ a b c, T a b → (R a c ↔ S b c)) {l : List α} {l' : List β}
    (h : List.Forall₂ T l l') {m : List γ} : List.Forall₂ R l m ↔ List.Forall₂ S l' m := by
  induction h generalizing m with
  | nil => rw [List.forall₂_nil_left_iff, List.forall₂_nil_left_iff]
  | cons hab _ ih =>
    rw [List.forall₂_cons_left_iff, List.forall₂_cons_left_iff]
    exact exists_congr fun c => exists_congr fun cs =>
      and_congr (hRS _ _ c hab) (and_congr ih Iff.rfl)

theorem exists_mem_of_forall₂ {α β : Type} {R : α → β → Prop} {l : List α} {l' : List β}
    (h : List.Forall₂ R l l') {a : α} (ha : a ∈ l) : ∃ b ∈ l', R a b := by
  induction h with
  | nil => cases ha
  | @cons c d _ _ hcd _ ih =>
    rcases List.mem_cons.mp ha with rfl | ha
    · exact ⟨d, List.mem_cons_self, hcd⟩
    · obtain ⟨b, hb, hab⟩ := ih ha
      exact ⟨b, List.mem_cons_of_mem _ hb, hab⟩

/-- What is written item by item is read item by item. -/
theorem mapM_map_eq_some {α β : Type} {write : α → β} {read : β → Option α} {l : List α}
    (h : ∀ a ∈ l, read (write a) = some a) : (l.map write).mapM read = some l :=
  mapM_eq_some_of_forall₂ (List.forall₂_map_left_iff.mpr (List.forall₂_same.mpr h))

/-! ## Fields -/

section

variable {α : Type} {n m : String} {v : Value} {fields : Fields} {read : Value → Option α}
  {missing : Option α}

@[simp] theorem field?_nil : field? [] n read missing = missing := rfl

@[simp] theorem field?_cons_self : field? ((n, v) :: fields) n read missing = read v := by
  rw [field?, List.lookup_cons, beq_self_eq_true]

@[simp] theorem field?_cons_of_ne (h : n ≠ m) :
    field? ((m, v) :: fields) n read missing = field? fields n read missing := by
  rw [field?, List.lookup_cons, beq_false_of_ne h, field?]

end

namespace Value

@[simp] theorem word32?_ofNat (n : UInt32) : (ofNat n.toNat).word32? = some n := by
  rw [word32?, ofNat, nat?, Text.Decimal.canonical?_toDigits, Option.bind_some,
    Text.Decimal.word32?_toNat]

@[simp] theorem word64?_ofWord (n : UInt64) : (ofWord n).word64? = some n := by
  rw [word64?, ofWord, ofNat, nat?, Text.Decimal.canonical?_toDigits, Option.bind_some,
    Text.Decimal.word64?_toNat]

/-- A value or null is read back, if no value is written as null. -/
theorem orNull?_orNull {α : Type} {write : α → Value} {read : Value → Option α}
    (h : ∀ a, read (write a) = some a) (hnull : ∀ a, write a ≠ null) (a? : Option α) :
    orNull? read (orNull write a?) = some a? := by
  cases a? with
  | none => rfl
  | some a =>
    have hread : orNull? read (write a) = (read (write a)).map some := by
      cases hw : write a with
      | null => exact absurd hw (hnull a)
      | _ => rfl
    rw [orNull, hread, h, Option.map_some]

@[simp] theorem orNull?_word32? (n? : Option UInt32) :
    orNull? word32? (orNull (fun n => ofNat n.toNat) n?) = some n? :=
  orNull?_orNull word32?_ofNat (fun _ => Value.noConfusion) n?

@[simp] theorem orNull?_word64? (n? : Option UInt64) :
    orNull? word64? (orNull ofWord n?) = some n? :=
  orNull?_orNull word64?_ofWord (fun _ => Value.noConfusion) n?

/-! ## Legible values -/

@[simp] theorem legible_ofNat (n : Nat) : (ofNat n).Legible := legible_number (numeral_toDigits n)

@[simp] theorem legible_ofWord (n : UInt64) : (ofWord n).Legible := legible_ofNat n.toNat

theorem legible_ofText {s : String} (hs : Plain s.toList) : (ofText s).Legible :=
  legible_string (legible_pieces hs)

@[simp] theorem legible_orNull {α : Type} {write : α → Value} (h : ∀ a, (write a).Legible)
    (a? : Option α) : (orNull write a?).Legible := by
  cases a? with
  | none => exact legible_null
  | some a => exact h a

/-! ## Records -/

/-- An object whose members have these names and values, in this order. -/
def Lists (v : Value) (named : Fields) : Prop :=
  ∃ members, v = .object members ∧
    List.Forall₂ (fun m n => name? m.1 = some n.1 ∧ m.2 = n.2) members named

/-- The members that are fields. -/
def known (names : List String) (named : Fields) : Fields :=
  named.filter fun m => names.contains m.1

variable {v : Value} {names : List String} {named members : Fields}

/-- **The fields of an object are its members of a known name**, if no two have the same. -/
theorem fields?_of_lists (h : v.Lists named) (least : Nat) :
    v.fields? names least =
      if ((known names named).map Prod.fst).Nodup then some (known names named) else none := by
  obtain ⟨members, rfl, hmembers⟩ := h
  have hnamed : members.mapM (fun m => (name? m.1).map fun n => (n, m.2)) = some named := by
    refine mapM_eq_some_of_forall₂ (hmembers.imp ?_)
    rintro m n ⟨hname, hvalue⟩
    rw [hname, hvalue, Option.map_some]
  simp only [fields?, hnamed, Option.bind_eq_bind, Option.bind_some]
  rfl

theorem nodup_known_iff :
    ((known names named).map Prod.fst).Nodup ↔ ∀ n ∈ names, (named.map Prod.fst).count n ≤ 1 := by
  have hkeys : (known names named).map Prod.fst = (named.map Prod.fst).filter names.contains := by
    rw [known, List.filter_map]
    rfl
  rw [hkeys, List.nodup_iff_count_le_one]
  constructor
  · intro h n hn
    rw [← List.count_filter (List.contains_iff_mem.mpr hn)]
    exact h n
  · intro h n
    by_cases hn : n ∈ names
    · rw [List.count_filter (List.contains_iff_mem.mpr hn)]
      exact h n hn
    · rw [List.count_eq_zero_of_not_mem fun hmem =>
        hn (List.contains_iff_mem.mp (List.mem_filter.mp hmem).2)]
      exact Nat.zero_le 1

theorem known_eq_self (h : ∀ n ∈ named.map Prod.fst, n ∈ names) : known names named = named :=
  List.filter_eq_self.mpr fun m hm => List.contains_iff_mem.mpr (h m.1 (List.mem_map_of_mem hm))

theorem lists_record (members : Fields) : (record members).Lists members := by
  refine ⟨_, rfl, List.forall₂_map_left_iff.mpr (List.forall₂_same.mpr fun m _ => ?_)⟩
  exact ⟨name?_pieces m.1, rfl⟩

/-- **The members of a record are its fields**, if no two have the same name. -/
theorem fields?_record (names : List String) (hnames : members.map Prod.fst = names)
    (hnodup : names.Nodup) (least : Nat) : (record members).fields? names least = some members := by
  have hknown : known names members = members := known_eq_self fun n hn => hnames ▸ hn
  rw [fields?_of_lists (lists_record members), hknown, hnames, if_pos hnodup]

/-- The fields of an array are those of an object with them. -/
theorem fields?_array {items : List Value} {least : Nat} (hnodup : names.Nodup)
    (hleast : least ≤ items.length) (hmost : items.length ≤ names.length)
    (hv : v.Lists (names.zip items)) :
    (array items).fields? names least = v.fields? names least := by
  have hkeys : (names.zip items).map Prod.fst = names.take items.length := by
    rw [List.zip_eq_zip_take_min, Nat.min_eq_right hmost, List.take_length]
    exact List.map_fst_zip (List.length_take_le _ _)
  have hknown : known names (names.zip items) = names.zip items :=
    known_eq_self fun n hn => List.mem_of_mem_take (hkeys ▸ hn)
  rw [fields?_of_lists hv, hknown, hkeys, if_pos (hnodup.sublist (List.take_sublist _ _))]
  exact if_pos ⟨hleast, hmost⟩

/-- A record is legible if its names are plain and its values legible. -/
theorem legible_record (names : List String) (hnames : members.map Prod.fst = names)
    (hplain : ∀ n ∈ names, Plain n.toList) (hvalues : ∀ m ∈ members, m.2.Legible) :
    (record members).Legible := by
  refine legible_object fun m hm => ?_
  obtain ⟨n, hn, rfl⟩ := List.mem_map.mp hm
  refine ⟨legible_pieces (hplain n.1 ?_), hvalues n hn⟩
  rw [← hnames]
  exact List.mem_map_of_mem hn

end Value

end BufferPlan.Json
