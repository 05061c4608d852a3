import BufferPlan.Proofs.Text.Hex
import BufferPlan.Text.Quoted
import Mathlib.Data.List.Chain
import Mathlib.Tactic.FinCases

/-!
# Quoted texts told apart

A quoted text can be found again in what it is put into, and read. For this it is enough that a
character is written as itself, as a letter behind a backslash or by its code point, and that the
quotation mark and the backslash are never written as themselves; which of the other characters are
shown by their code points makes no difference. No two characters are written alike, and none
begins as another one is written. Inside a quoted text every quotation mark stands behind a
backslash, so the one that opens it is the last but one that does not.

* `escape_cases`: how a character is written.
* `Escaped`: the ways in which a character is written. **`Escaped.inj`**: they are told apart,
  whatever follows.
* **`seen_of_mem_encode`**: every character of a quoted text can be seen.
* `isChain_body`: quotation marks stand behind backslashes.
* **`encode_injective`**: no two texts are quoted alike.
* **`append_encode_inj`**: a quoted text behind a blank is found again at the end of a text.
-/

namespace BufferPlan.Text.Quoted

/-! ## Splitting at a separator -/

section

variable {α : Type} {x : α} {a b c d : List α}

/-- A text is split in one way at the first of its separators. -/
theorem append_cons_inj (ha : x ∉ a) (hb : x ∉ b) (h : a ++ x :: c = b ++ x :: d) :
    a = b ∧ c = d := by
  induction a generalizing b with
  | nil =>
    cases b with
    | nil => exact ⟨rfl, (List.cons.inj h).2⟩
    | cons y b => exact absurd ((List.cons.inj h).1 ▸ List.mem_cons_self) hb
  | cons z a ih =>
    cases b with
    | nil => exact absurd ((List.cons.inj h).1 ▸ List.mem_cons_self) ha
    | cons y b =>
      obtain ⟨rfl, htail⟩ := List.cons.inj h
      obtain ⟨rfl, rfl⟩ := ih (fun hx => ha (List.mem_cons_of_mem _ hx))
        (fun hx => hb (List.mem_cons_of_mem _ hx)) htail
      exact ⟨rfl, rfl⟩

/-- A text is split in one way at the last of its separators. -/
theorem append_cons_inj_last (hc : x ∉ c) (hd : x ∉ d) (h : a ++ x :: c = b ++ x :: d) :
    a = b ∧ c = d := by
  have hrev : c.reverse ++ x :: a.reverse = d.reverse ++ x :: b.reverse := by
    have h := congrArg List.reverse h
    simpa using h
  obtain ⟨hcd, hab⟩ := append_cons_inj (fun hx => hc (List.mem_reverse.mp hx))
    (fun hx => hd (List.mem_reverse.mp hx)) hrev
  exact ⟨List.reverse_injective hab, List.reverse_injective hcd⟩

end

/-! ## Characters -/

/-- The letters that stand behind a backslash, each with the character it stands for. -/
def letters : List (Char × Char) :=
  [('"', '"'), ('\\', '\\'), ('t', '\t'), ('n', '\n'), ('r', '\r'), ('0', '\x00')]

/-- The ways in which a character is written inside a quoted text. -/
inductive Escaped : Char → List Char → Prop where
  /-- The character itself. -/
  | plain {c : Char} (hquote : c ≠ '"') (hbackslash : c ≠ '\\') : Escaped c [c]
  /-- A letter behind a backslash. -/
  | letter {l c : Char} (h : (l, c) ∈ letters) : Escaped c ['\\', l]
  /-- The code point in braces. -/
  | code (c : Char) : Escaped c ('\\' :: 'u' :: '\x7b' :: (Nat.toDigits 16 c.toNat ++ ['\x7d']))

/-- How a character is written: by a letter if it has one, and else by its code point or as itself,
which depends on whether it must be shown. -/
theorem escape_cases (c : Char) :
    (∃ l, (l, c) ∈ letters ∧ escape c = ['\\', l]) ∨
    (mustShow c = true ∧
      escape c = '\\' :: 'u' :: '\x7b' :: (Nat.toDigits 16 c.toNat ++ ['\x7d'])) ∨
    (mustShow c = false ∧ c ≠ '"' ∧ c ≠ '\\' ∧ escape c = [c]) := by
  by_cases hletter : c ∈ letters.map Prod.snd
  · obtain ⟨⟨l, d⟩, hmem, rfl⟩ := List.mem_map.mp hletter
    have escape_letters : ∀ e ∈ letters, escape e.2 = ['\\', e.1] := by decide
    exact Or.inl ⟨l, hmem, escape_letters _ hmem⟩
  · simp only [letters, List.map_cons, List.map_nil, List.mem_cons, List.not_mem_nil, or_false,
      not_or] at hletter
    obtain ⟨h₁, h₂, h₃, h₄, h₅, h₆⟩ := hletter
    simp only [escape, if_neg h₁, if_neg h₂, if_neg h₃, if_neg h₄, if_neg h₅, if_neg h₆]
    cases mustShow c with
    | true => exact Or.inr (Or.inl ⟨rfl, rfl⟩)
    | false => exact Or.inr (Or.inr ⟨rfl, h₁, h₂, rfl⟩)

theorem escaped_escape (c : Char) : Escaped c (escape c) := by
  rcases escape_cases c with ⟨l, hl, h⟩ | ⟨-, h⟩ | ⟨-, hquote, hbackslash, h⟩
  · exact h ▸ .letter hl
  · exact h ▸ .code c
  · exact h ▸ .plain hquote hbackslash

theorem not_mem_toDigits {c : Char} (hc : Hex.digit? c = none) (n : Nat) :
    c ∉ Nat.toDigits 16 n := by
  intro h
  obtain ⟨d, hd, rfl⟩ := Hex.mem_toDigits h
  rw [Hex.digit?_digitChar hd] at hc
  cases hc

/-- **The ways of writing are told apart**, whatever follows. -/
theorem Escaped.inj {c d : Char} {w x r s : List Char} (hc : Escaped c w) (hd : Escaped d x)
    (h : w ++ r = x ++ s) : c = d ∧ r = s := by
  have no_u : ∀ e ∈ letters, e.1 ≠ 'u' := by decide
  cases hc with
  | plain hcquote hcbackslash =>
    cases hd with
    | plain => exact List.cons.inj h
    | letter | code => exact absurd (List.cons.inj h).1 hcbackslash
  | @letter l c hl =>
    cases hd with
    | plain hdquote hdbackslash => exact absurd (List.cons.inj h).1.symm hdbackslash
    | @letter m d hm =>
      obtain ⟨rfl, hrest⟩ := List.cons.inj (List.cons.inj h).2
      have letters_inj : ∀ e ∈ letters, ∀ f ∈ letters, e.1 = f.1 → e.2 = f.2 := by decide
      exact ⟨letters_inj _ hl _ hm rfl, hrest⟩
    | code => exact absurd (List.cons.inj (List.cons.inj h).2).1 (no_u _ hl)
  | code =>
    cases hd with
    | plain hdquote hdbackslash => exact absurd (List.cons.inj h).1.symm hdbackslash
    | letter hm => exact absurd (List.cons.inj (List.cons.inj h).2).1.symm (no_u _ hm)
    | code =>
      -- the digits end at the first closing brace
      have hcode : Nat.toDigits 16 c.toNat ++ '\x7d' :: r =
          Nat.toDigits 16 d.toNat ++ '\x7d' :: s := by simpa using h
      obtain ⟨hdigits, hrest⟩ :=
        append_cons_inj (not_mem_toDigits rfl _) (not_mem_toDigits rfl _) hcode
      exact ⟨Char.toNat_inj.mp (Hex.toDigits_inj.mp hdigits), hrest⟩

/-! ## Characters that are seen -/

/-- The character leaves a mark of its own and does not join the one before it. -/
def Seen (c : Char) : Prop :=
  c.toNat ∉ extenders ∧ c.toNat ∉ unseenBasic ∧ c.toNat ∉ unseenAbove

theorem mustShow_eq_false_iff {c : Char} : mustShow c = false ↔ Seen c := by
  rw [mustShow, Bool.or_eq_false_iff, Bool.eq_false_iff, Bool.eq_false_iff, Ne, Ne, isExtender_iff,
    isUnseen_iff, not_or, Seen]

theorem seen_of_graphic {c : Char} (h : Graphic c) : Seen c := by
  have hextenders : extenders.Apart 0x21 0x7E = true := by decide +kernel
  have hbasic : unseenBasic.Apart 0x21 0x7E = true := by decide +kernel
  have habove : unseenAbove.Apart 0x21 0x7E = true := by decide +kernel
  exact ⟨Ranges.not_mem_of_apart hextenders h.1 h.2, Ranges.not_mem_of_apart hbasic h.1 h.2,
    Ranges.not_mem_of_apart habove h.1 h.2⟩

theorem seen_of_mem_escape {c d : Char} (h : d ∈ escape c) : Seen d := by
  rcases escape_cases c with ⟨l, hl, hc⟩ | ⟨-, hc⟩ | ⟨hshow, -, -, hc⟩ <;> rw [hc] at h
  · have graphic_letters : ∀ e ∈ letters, Graphic e.1 := by
      intro e he
      fin_cases he <;> decide
    rcases List.mem_pair.mp h with rfl | rfl
    · exact seen_of_graphic (by decide)
    · exact seen_of_graphic (graphic_letters _ hl)
  · have graphic_digits : ∀ k < 16, Graphic (Nat.digitChar k) := by decide
    by_cases hd : d ∈ Nat.toDigits 16 c.toNat
    · obtain ⟨k, hk, rfl⟩ := Hex.mem_toDigits hd
      exact seen_of_graphic (graphic_digits k hk)
    · have hmark : d ∈ ['\\', 'u', '\x7b', '\x7d'] := by simpa [hd] using h
      fin_cases hmark <;> exact seen_of_graphic (by decide)
  · rw [List.mem_singleton.mp h]
    exact mustShow_eq_false_iff.mp hshow

/-- **A quoted text can be seen**, whatever the text is: each of its characters leaves a mark of its
own, and none joins the one before it. -/
theorem seen_of_mem_encode {c : Char} {s : List Char} (h : c ∈ encode s) : Seen c := by
  have hquote : Seen '"' := seen_of_graphic (by decide)
  rcases List.mem_append.mp h with h | h
  · rcases List.mem_cons.mp h with rfl | h
    · exact hquote
    · obtain ⟨d, -, hc⟩ := List.mem_flatMap.mp h
      exact seen_of_mem_escape hc
  · exact List.mem_singleton.mp h ▸ hquote

/-! ## Texts -/

theorem flatMap_escape_inj {s t : List Char} (h : s.flatMap escape = t.flatMap escape) : s = t := by
  have escape_ne_nil (c : Char) : escape c ≠ [] := by
    intro hnil
    have hc := escaped_escape c
    rw [hnil] at hc
    cases hc
  induction s generalizing t with
  | nil =>
    cases t with
    | nil => rfl
    | cons d t => simp [escape_ne_nil d] at h
  | cons c s ih =>
    cases t with
    | nil => simp [escape_ne_nil c] at h
    | cons d t =>
      obtain ⟨rfl, hrest⟩ := (escaped_escape c).inj (escaped_escape d) h
      rw [ih hrest]

/-- **No two texts are quoted alike.** -/
theorem encode_injective : Function.Injective encode := by
  intro s t h
  exact flatMap_escape_inj (List.append_cancel_right (List.cons.inj h).2)

/-- The second character is no quotation mark, unless the first one is a backslash. -/
def Guards (a b : Char) : Prop := b = '"' → a = '\\'

theorem isChain_cons_append {a : Char} {w rest : List Char} (hw : '"' ∉ w)
    (hrest : ∀ b, (b :: rest).IsChain Guards) : (a :: (w ++ rest)).IsChain Guards := by
  induction w generalizing a with
  | nil => exact hrest a
  | cons b w ih =>
    refine List.isChain_cons_cons.mpr ⟨?_, ih fun h => hw (List.mem_cons_of_mem _ h)⟩
    rintro rfl
    exact absurd List.mem_cons_self hw

/-- **Quotation marks stand behind backslashes**, whatever stands in front of what is quoted. -/
theorem isChain_body (a : Char) (s : List Char) : (a :: s.flatMap escape).IsChain Guards := by
  induction s generalizing a with
  | nil => exact .singleton a
  | cons c s ih =>
    rw [List.flatMap_cons]
    generalize hw : escape c = w
    cases hw ▸ escaped_escape c with
    | plain hquote => exact isChain_cons_append (by simpa using hquote.symm) ih
    | @letter l _ hl =>
      refine List.isChain_cons_cons.mpr ⟨fun h => absurd h (by decide), ?_⟩
      exact List.isChain_cons_cons.mpr ⟨fun _ => rfl, ih l⟩
    | code =>
      have hdigits : '"' ∉ Nat.toDigits 16 c.toNat := not_mem_toDigits rfl _
      exact isChain_cons_append (by simpa using hdigits) ih

/-- A quoted text does not go on with a blank and another quoted text at its end. -/
theorem encode_ne (s t before : List Char) : encode s ≠ before ++ ' ' :: encode t := by
  intro h
  have h : '"' :: s.flatMap escape ++ ['"'] =
      before ++ ' ' :: '"' :: t.flatMap escape ++ ['"'] := by simpa [encode] using h
  -- the quotation mark that opens the other text does not stand behind a backslash
  have hbody := List.append_cancel_right h
  have hguards := List.isChain_iff_forall_rel_of_append_cons_cons.mp (isChain_body '"' s) hbody
  exact absurd (hguards rfl) (by decide)

/-- **A quoted text behind a blank is found again** at the end of a text. -/
theorem append_encode_inj {a b s t : List Char}
    (h : a ++ ' ' :: encode s = b ++ ' ' :: encode t) : a = b ∧ s = t := by
  rcases List.append_eq_append_iff.mp h with ⟨between, rfl, hb⟩ | ⟨between, rfl, ha⟩
  · cases between with
    | nil => exact ⟨(List.append_nil a).symm, encode_injective (List.cons.inj hb).2⟩
    | cons c between => exact absurd (List.cons.inj hb).2 (encode_ne s t between)
  · cases between with
    | nil => exact ⟨List.append_nil b, (encode_injective (List.cons.inj ha).2).symm⟩
    | cons c between => exact absurd (List.cons.inj ha).2 (encode_ne t s between)

end BufferPlan.Text.Quoted
