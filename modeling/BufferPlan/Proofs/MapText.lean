import BufferPlan.Proofs.Documents
import BufferPlan.Proofs.Json.Object
import BufferPlan.Proofs.Text.Decimal

/-!
# Maps in texts

A map by id stands in a text as an object whose names are the ids in decimal. An id has one decimal
that is read, so no two names are those of one id; but a name may be repeated, and then its last
member decides, as if the members were written into a map from left to right. Every member has to be
readable all the same, those that are overridden too. Written the other way, every id has one member
and the ids ascend as numbers, whatever the order in which they were read.

* **`EdgeId.ofKey?_eq_some_iff`**: a key is read as an id if the decimal of the id stands between
  its quotes, and not otherwise.
* `EdgeMap.Says`: what one member says.
* **`EdgeMap.readText_eq_some_iff`**: an object is read as the map that its members make.
* `EdgeMap.KeyedById`: how maps are read and written, and `EdgeMap.keyedById`: so they are, whatever
  their values.
* **`maps_keyed_by_id`**: maps of counts and maps of kinds.
-/

namespace BufferPlan

open Json (Value Piece Raw ObjectText)
open Text.Decimal (Canonical)

/-! ## Keys -/

namespace EdgeId

theorem plain?_bind_canonical?_eq_some_iff {ps : List Piece} {w : List Char} (h : Raw ps w)
    {n : Nat} :
    (Json.plain? ps).bind Text.Decimal.canonical? = some n ↔ Canonical w n := by
  rw [Option.bind_eq_some_iff]
  constructor
  · rintro ⟨ds, hplain, hds⟩
    have hcanonical := Text.Decimal.canonical?_eq_some_iff.mp hds
    rwa [(h.plain?_eq_some_iff hcanonical.denotes.digits.2).mp hplain]
  · intro hcanonical
    exact ⟨w, (h.plain?_eq_some_iff hcanonical.denotes.digits.2).mpr rfl,
      Text.Decimal.canonical?_eq_some_iff.mpr hcanonical⟩

/-- **A key is read as an id if the decimal of the id stands between its quotes**, and not
otherwise. -/
theorem ofKey?_eq_some_iff {ps : List Piece} {w : List Char} (h : Raw ps w) {id : EdgeId} :
    ofKey? ps = some id ↔ Canonical w id.raw.toNat := by
  rw [ofKey?, Option.bind_eq_some_iff]
  constructor
  · rintro ⟨n, hn, hid⟩
    obtain ⟨raw, hraw, rfl⟩ := Option.map_eq_some_iff.mp hid
    obtain rfl := Text.Decimal.word64?_eq_some_iff.mp hraw
    exact (plain?_bind_canonical?_eq_some_iff h).mp hn
  · intro hcanonical
    exact ⟨id.raw.toNat, (plain?_bind_canonical?_eq_some_iff h).mpr hcanonical,
      Option.map_eq_some_iff.mpr ⟨id.raw, Text.Decimal.word64?_toNat id.raw, rfl⟩⟩

/-- An id has one decimal. -/
theorem existsUnique_canonical (id : EdgeId) : ∃! w, Canonical w id.raw.toNat :=
  ⟨Nat.toDigits 10 id.raw.toNat, Text.Decimal.canonical_toDigits _, fun _ h => h.eq_toDigits⟩

/-- A key is written as the decimal between quotes. -/
theorem text_toKey (id : EdgeId) :
    String.ofList (Json.Token.text (.string id.toKey)) =
      "\"" ++ Text.Decimal.ofWord id.raw ++ "\"" := by
  have hdigits : id.toKey.flatMap Json.Piece.text = Nat.toDigits 10 id.raw.toNat := by
    have hsingle : ∀ d ∈ Nat.toDigits 10 id.raw.toNat, (Json.Piece.char d).text = [d] := by
      intro d hd
      have hlegible := id.legible_toKey _ (List.mem_map_of_mem hd)
      exact (Json.Piece.spelled_text hlegible).eq_of_isDigit
        (Nat.isDigit_of_mem_toDigits (by decide) (by decide) hd)
    rw [toKey, Json.pieces, List.flatMap_map, List.flatMap_congr hsingle,
      List.flatMap_singleton']
  rw [← String.toList_inj, Json.Token.text, hdigits]
  simp [Text.Decimal.ofWord]

end EdgeId

namespace EdgeMap

variable {α : Type} {read : Value → Option α} {members members' : List (List Char × Value)}
  {entries : List (EdgeId × α)} {s s' : String}

/-! ## Reading -/

/-- What a member says: its name is the decimal of the id, and its value is read as the value. -/
def Says (read : Value → Option α) (m : List Char × Value) (e : EdgeId × α) : Prop :=
  Canonical m.1 e.1.raw.toNat ∧ read m.2 = some e.2

/-- An object makes a map of what its members say, each by its key and its value. -/
theorem ofValue?_object_eq_some_iff {ms : List (List Piece × Value)} {m : EdgeMap α} :
    ofValue? read (.object ms) = some m ↔
      ∃ entries, List.Forall₂ (fun m e => EdgeId.ofKey? m.1 = some e.1 ∧ read m.2 = some e.2)
        ms entries ∧ ofList entries = m := by
  have hentry (m : List Piece × Value) (e : EdgeId × α) :
      ((EdgeId.ofKey? m.1).bind fun id => (read m.2).bind fun a => some (id, a)) = some e ↔
        EdgeId.ofKey? m.1 = some e.1 ∧ read m.2 = some e.2 := by
    simp only [Option.bind_eq_some_iff]
    constructor
    · rintro ⟨id, hid, a, ha, hpair⟩
      obtain rfl := Option.some.inj hpair
      exact ⟨hid, ha⟩
    · rintro ⟨hid, ha⟩
      exact ⟨e.1, hid, e.2, ha, rfl⟩
  simp only [← hentry]
  rw [ofValue?, Option.bind_eq_bind, Option.bind_eq_some_iff]
  exact exists_congr fun entries => and_congr Json.mapM_eq_some_iff_forall₂ Option.some_inj

/-- **An object is read as the map that its members make**, and only if each of them says
something. -/
theorem readText_eq_some_iff (h : ObjectText members s) {m : EdgeMap α} :
    readText (ofValue? read) s = some m ↔
      ∃ entries, List.Forall₂ (Says read) members entries ∧ ofList entries = m := by
  obtain ⟨ms, hms, hs⟩ := h.exists_writtenAs
  rw [readText, Value.parse?_of_writtenAs hs, Option.bind_some, ofValue?_object_eq_some_iff]
  refine exists_congr fun entries => and_congr_left' ?_
  refine Json.forall₂_congr_left (fun m w e hmw => ?_) hms
  obtain ⟨hraw, hvalue⟩ := hmw
  rw [Says, ← EdgeId.ofKey?_eq_some_iff hraw, ← hvalue]

/-! ## The order of the members -/

/-- The names are the decimals of the ids. -/
theorem names_eq (h : List.Forall₂ (Says read) members entries) :
    members.map Prod.fst = (entries.map Prod.fst).map fun id => Nat.toDigits 10 id.raw.toNat := by
  rw [List.map_map, ← List.forall₂_eq_eq_eq, List.forall₂_map_left_iff, List.forall₂_map_right_iff]
  exact h.imp fun m e hsays => hsays.1.eq_toDigits

theorem readText_eq_some_of_perm (h : ObjectText members s) (h' : ObjectText members' s')
    (hperm : members.Perm members') (hnodup : (members.map Prod.fst).Nodup) {m : EdgeMap α}
    (hread : readText (ofValue? read) s = some m) : readText (ofValue? read) s' = some m := by
  obtain ⟨entries, hsays, rfl⟩ := (readText_eq_some_iff h).mp hread
  obtain ⟨entries', hsays', hentries⟩ := List.perm_comp_forall₂ hperm.symm hsays
  refine (readText_eq_some_iff h').mpr ⟨entries', hsays', (ofList_eq_of_perm hentries.symm ?_).symm⟩
  rw [names_eq hsays] at hnodup
  exact hnodup.of_map

/-- **The order of the members makes no difference**, if no name is repeated. -/
theorem readText_of_perm (h : ObjectText members s) (h' : ObjectText members' s')
    (hperm : members.Perm members') (hnodup : (members.map Prod.fst).Nodup) :
    readText (ofValue? read) s = readText (ofValue? read) s' := by
  apply Option.ext
  intro m
  have hnodup' : (members'.map Prod.fst).Nodup := (hperm.map Prod.fst).nodup hnodup
  exact ⟨readText_eq_some_of_perm h h' hperm hnodup,
    readText_eq_some_of_perm h' h hperm.symm hnodup'⟩

/-! ## Writing -/

/-- **The text of a map** has one member for each entry. -/
theorem writeText_eq (write : α → Value) (m : EdgeMap α) :
    writeText (toValue write) m = "\x7b" ++ ",".intercalate (m.entries.map fun e =>
      "\"" ++ Text.Decimal.ofWord e.1.raw ++ "\":" ++ writeText write e.2) ++ "\x7d" := by
  have hmark : "\":" = "\"" ++ ":" := rfl
  rw [writeText, toValue, Value.compact_object, List.map_map]
  refine congrArg (fun members => "\x7b" ++ ",".intercalate members ++ "\x7d") ?_
  refine List.map_congr_left fun e _ => ?_
  rw [Function.comp_apply, Value.compactMember, EdgeId.text_toKey, hmark, writeText]
  simp only [String.append_assoc]

/-! ## Maps kept by id -/

/-- Maps are kept in texts as objects whose names are the ids in decimal. -/
structure KeyedById (write : α → Value) (read : Value → Option α) (writeMap : EdgeMap α → Value)
    (readMap : Value → Option (EdgeMap α)) : Prop where
  /-- An object is read if each of its members says something. The map is what they leave when they
  are written into an empty one from left to right: the last one of an id decides. -/
  accepted : ∀ members s entries, ObjectText members s →
    List.Forall₂ (Says read) members entries →
    ∃ m, readText readMap s = some m ∧ m = entries.foldl (fun m e => m.insert e.1 e.2) ∅ ∧
      ∀ id, m.get? id = (lastAt? Prod.fst entries id).map Prod.snd
  /-- It is refused if a name is the decimal of no id or a value is not read, wherever the member
  stands and whatever follows it. -/
  refused : ∀ members s, ObjectText members s →
    (∃ m ∈ members, (∀ id : EdgeId, ¬Canonical m.1 id.raw.toNat) ∨ read m.2 = none) →
    readText readMap s = none
  /-- A map is written with one member for each id that has a value, and the ids ascend as
  numbers. -/
  listed : ∀ m, ∃ entries : List (EdgeId × α),
    (entries.map fun e => e.1.raw.toNat).Pairwise (· < ·) ∧
    (∀ id a, (id, a) ∈ entries ↔ m.get? id = some a) ∧
    writeText writeMap m = "\x7b" ++ ",".intercalate (entries.map fun e =>
      "\"" ++ Text.Decimal.ofWord e.1.raw ++ "\":" ++ writeText write e.2) ++ "\x7d"
  /-- Texts with the same members in another order are read as the same map and written as the same
  text again, if no name is repeated. -/
  rearranged : ∀ members members' s s', ObjectText members s → ObjectText members' s' →
    members.Perm members' → (members.map Prod.fst).Nodup →
    readText readMap s = readText readMap s' ∧
      (readText readMap s).map (writeText writeMap) = (readText readMap s').map (writeText writeMap)

/-- **Maps are kept by id**, whatever their values. -/
theorem keyedById (write : α → Value) (read : Value → Option α) :
    KeyedById write read (toValue write) (ofValue? read) := by
  constructor
  case accepted =>
    intro members s entries h hsays
    exact ⟨ofList entries, (readText_eq_some_iff h).mpr ⟨entries, hsays, rfl⟩, rfl,
      get?_ofList entries⟩
  case refused =>
    rintro members s h ⟨w, hw, hbad⟩
    refine Option.eq_none_iff_forall_ne_some.mpr fun m hm => ?_
    obtain ⟨entries, hsays, -⟩ := (readText_eq_some_iff h).mp hm
    obtain ⟨e, -, hname, hvalue⟩ := Json.exists_mem_of_forall₂ hsays hw
    rcases hbad with hbad | hbad
    · exact hbad e.1 hname
    · rw [hbad] at hvalue
      cases hvalue
  case listed =>
    intro m
    exact ⟨m.entries, List.pairwise_map.mpr (m.ascending.imp EdgeId.lt_iff.mp),
      fun _ _ => mem_entries_iff, writeText_eq write m⟩
  case rearranged =>
    intro members members' s s' h h' hperm hnodup
    have hread : readText (ofValue? read) s = readText (ofValue? read) s' :=
      readText_of_perm h h' hperm hnodup
    exact ⟨hread, by rw [hread]⟩

end EdgeMap

/-- **Maps of counts and maps of kinds are kept by id.** A key is read as an id if the decimal of the
id stands between its quotes, and every id has one decimal. -/
theorem maps_keyed_by_id :
    (∀ ps w, Raw ps w → ∀ id, EdgeId.ofKey? ps = some id ↔ Canonical w id.raw.toNat) ∧
    (∀ id : EdgeId, ∃! w, Canonical w id.raw.toNat) ∧
    EdgeMap.KeyedById (fun n : UInt32 => .ofNat n.toNat) Value.word32? EdgeMap.ofCounts
      EdgeMap.counts? ∧
    EdgeMap.KeyedById Kind.toValue Kind.ofValue? EdgeMap.ofKinds EdgeMap.kinds? :=
  ⟨fun _ _ h _ => EdgeId.ofKey?_eq_some_iff h, EdgeId.existsUnique_canonical,
    EdgeMap.keyedById _ _, EdgeMap.keyedById _ _⟩

/-- A repeated id has its last count, and nine is listed before ten. -/
example : (readText EdgeMap.counts? " \x7b\"10\": 1, \"9\":2,\"10\" :3\x7d").map
    (writeText EdgeMap.ofCounts) = some "\x7b\"9\":2,\"10\":3\x7d" := by
  decide

end BufferPlan
