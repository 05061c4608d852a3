import BufferPlan.Proofs.Traversal
import BufferPlan.Tuning.Options

/-!
# What a sequence of options comes to

Options are read in the order in which they are published. An illegible text ends the run where it
stands; a count that must not be zero is looked at when the run is over, if nothing has overridden
it by then. What a sequence comes to can be told without running it (`Tuning.verdict`): the first
illegible option is refused, and where there is none, every setting has the value of the last option
under its key, and these values are checked.

* `Tuning.readOption_eq`, `Tuning.foldlM_readOption`: one option, and from it a run of options.
* `Tuning.ofOptions_eq_verdict`: the run comes to the verdict.
* `Tuning.verdict_filter_known`, `Tuning.verdict_of_overridden`, `Tuning.verdict_eq_ok_of_under`:
  what does not matter. Unknown keys do not, nor do legible options that are overridden, nor, for
  options that succeed, the order of different keys.
* `Tuning.verdict_toOptions`: the options of valid values come to these values.
-/

namespace BufferPlan

/-! ## Settings -/

namespace Setting

theorem ofKey?_eq_some_iff {k : String} {s : Setting} : ofKey? k = some s ↔ k = s.key := by
  constructor
  · intro h
    have hkey := List.find?_some h
    exact (beq_iff_eq.mp hkey).symm
  · rintro rfl
    exact ofKey?_key s

theorem key_inj {s s' : Setting} : s.key = s'.key ↔ s = s' := by
  refine ⟨fun h => ?_, fun h => h ▸ rfl⟩
  have hs := ofKey?_eq_some_iff.mpr h
  rw [ofKey?_key] at hs
  exact Option.some.inj hs

/-- The setting takes the text: it is a count, or it is empty and lifts the cap. -/
def takes (s : Setting) (text : String) : Bool :=
  (s == .gateCap && text.isEmpty) || (Tuning.count? text).isSome

/-- The settings that must not be zero, in the order in which they are checked. -/
def positive : List Setting := [sortFanOut, sortFloor, gateCap]

end Setting

namespace Tuning

/-- The value of a setting. Only a cap can be missing. -/
def get? (t : Tuning) : Setting → Option UInt32
  | .buffersPerChannel => some t.buffersPerChannel
  | .floatingPerGate => some t.floatingPerGate
  | .gateCap => t.gateCap
  | .sortFanOut => some t.sortFanOut
  | .sortFloor => some t.sortFloor

/-! ## The verdict on a sequence of options -/

/-- The key is one that sets a value. -/
def known (o : String × String) : Bool := (Setting.ofKey? o.1).isSome

/-- The setting of the option, if there is one, takes its text. -/
def legible (o : String × String) : Bool :=
  match Setting.ofKey? o.1 with
  | some s => s.takes (Text.trimmed o.2)
  | none => true

/-- The options under one key, in order. -/
def under (key : String) (options : List (String × String)) : List (String × String) :=
  options.filter fun o => o.1 = key

/-- The text of the last option under the key of a setting. -/
def lastText? (options : List (String × String)) (s : Setting) : Option String :=
  (under s.key options).getLast?.map fun o => Text.trimmed o.2

/-- The count that a text denotes, where it is known to denote one. -/
def count (text : String) : UInt32 := (count? text).getD 0

/-- The values with every setting read from its last text. -/
def after (t : Tuning) (options : List (String × String)) : Tuning where
  buffersPerChannel := (lastText? options .buffersPerChannel).elim t.buffersPerChannel count
  floatingPerGate := (lastText? options .floatingPerGate).elim t.floatingPerGate count
  gateCap := (lastText? options .gateCap).elim t.gateCap count?
  sortFanOut := (lastText? options .sortFanOut).elim t.sortFanOut count
  sortFloor := (lastText? options .sortFloor).elim t.sortFloor count

/-- The first option with a text that its setting does not take. -/
def firstIllegible? (options : List (String × String)) : Option (String × String) :=
  options.find? fun o => !legible o

/-- The first setting that must not be zero and is. -/
def firstZero? (t : Tuning) : Option Setting := Setting.positive.find? fun s => t.get? s = some 0

/-- **What a sequence of options comes to.** -/
def verdict (options : List (String × String)) : Except OptionError Tuning :=
  match firstIllegible? options with
  | some o => .error (.badValue o.1 (Text.trimmed o.2))
  | none =>
    match (Tuning.default.after options).firstZero? with
    | some s => .error (.belowLeast s.key 0 1)
    | none => .ok (Tuning.default.after options)

variable {t : Tuning} {o o' : String × String} {options options' : List (String × String)}

/-! ## One option -/

theorem lastText?_singleton (o : String × String) (s : Setting) :
    lastText? [o] s = if o.1 = s.key then some (Text.trimmed o.2) else none := by
  unfold lastText? under
  by_cases h : o.1 = s.key
  · rw [List.filter_cons_of_pos (by simpa using h), if_pos h]
    rfl
  · rw [List.filter_cons_of_neg (by simpa using h), if_neg h]
    rfl

theorem count?_empty : count? "" = none := by decide

/-- A text that a setting takes sets its value, and any other is refused. -/
theorem assign_eq (t : Tuning) (s : Setting) (o : String × String) (hkey : o.1 = s.key) :
    t.assign s (Text.trimmed o.2) =
      if s.takes (Text.trimmed o.2) then .ok (t.after [o])
      else .error (.badValue s.key (Text.trimmed o.2)) := by
  have hlast (s' : Setting) :
      lastText? [o] s' = if s = s' then some (Text.trimmed o.2) else none := by
    simp only [lastText?_singleton, hkey, Setting.key_inj]
  generalize Text.trimmed o.2 = text at *
  cases s with
  | gateCap =>
    by_cases hblank : text = ""
    · subst hblank
      simp [assign, Setting.takes, after, hlast, count?_empty]
    · cases hcount : count? text with
      | none => simp [assign, Setting.takes, readCount, hcount, hblank, Except.map]
      | some n => simp [assign, Setting.takes, readCount, hcount, hblank, after, hlast, Except.map]
  | _ =>
    cases hcount : count? text with
    | none => simp [assign, Setting.takes, readCount, hcount, Except.map]
    | some n => simp [assign, Setting.takes, readCount, hcount, after, hlast, count, Except.map]

theorem after_eq_self (h : ∀ s, lastText? options s = none) : t.after options = t := by
  obtain ⟨b, f, c, p, l⟩ := t
  simp [after, h]

/-- **One option.** A legible one sets its value, and any other is refused. -/
theorem readOption_eq (t : Tuning) (o : String × String) :
    t.readOption o =
      if legible o then .ok (t.after [o]) else .error (.badValue o.1 (Text.trimmed o.2)) := by
  unfold readOption legible
  cases hkey : Setting.ofKey? o.1 with
  | none =>
    have hnone (s : Setting) : lastText? [o] s = none := by
      rw [lastText?_singleton, if_neg]
      intro h
      rw [Setting.ofKey?_eq_some_iff.mpr h] at hkey
      cases hkey
    rw [after_eq_self hnone]
    rfl
  | some s =>
    have hs := Setting.ofKey?_eq_some_iff.mp hkey
    rw [hs]
    exact assign_eq t s o hs

/-! ## A run of options -/

theorem lastText?_append (l m : List (String × String)) (s : Setting) :
    lastText? (l ++ m) s = (lastText? m s).or (lastText? l s) := by
  rw [lastText?, under, List.filter_append, List.getLast?_append, Option.map_or]
  rfl

/-- What is read later overrides what was read before. -/
theorem after_append (t : Tuning) (l m : List (String × String)) :
    t.after (l ++ m) = (t.after l).after m := by
  have elim_or {α : Type} (a b : Option String) (x : α) (f : String → α) :
      (a.or b).elim x f = a.elim (b.elim x f) f := by
    cases a with
    | none => rfl
    | some text => rfl
  simp only [after, lastText?_append, elim_or]

/-- **A run of options.** It is refused at the first illegible one. -/
theorem foldlM_readOption (t : Tuning) (options : List (String × String)) :
    options.foldlM readOption t =
      match firstIllegible? options with
      | some o => .error (.badValue o.1 (Text.trimmed o.2))
      | none => .ok (t.after options) := by
  induction options generalizing t with
  | nil => rfl
  | cons o options ih =>
    rw [List.foldlM_cons, readOption_eq, firstIllegible?]
    cases ho : legible o with
    | false =>
      rw [List.find?_cons_of_pos (by simp [ho])]
      rfl
    | true =>
      rw [List.find?_cons_of_neg (by simp [ho])]
      show options.foldlM readOption (t.after [o]) = _
      rw [ih, ← after_append]
      rfl

/-- The ranges are checked in order. -/
theorem validate_eq (t : Tuning) :
    t.validate =
      match t.firstZero? with
      | some s => .error (.belowLeast s.key 0 1)
      | none => .ok () := by
  obtain ⟨b, f, cap, p, l⟩ := t
  unfold validate requirePositive firstZero?
  by_cases hp : p = 0
  · simp [Setting.positive, get?, hp, bind, Except.bind]
  by_cases hl : l = 0
  · simp [Setting.positive, get?, hp, hl, bind, Except.bind]
  cases cap with
  | none => simp [Setting.positive, get?, hp, hl, bind, Except.bind]
  | some n =>
    by_cases hn : n = 0
    · simp [Setting.positive, get?, hp, hl, hn, bind, Except.bind]
    · simp [Setting.positive, get?, hp, hl, hn, bind, Except.bind]

theorem validate_eq_ok_iff : t.validate = .ok () ↔ t.firstZero? = none := by
  rw [validate_eq]
  cases t.firstZero? with
  | none => simp
  | some s => simp

/-- **The run comes to the verdict.** -/
theorem ofOptions_eq_verdict (options : List (String × String)) :
    ofOptions options = verdict options := by
  rw [ofOptions, foldlM_readOption, verdict]
  cases firstIllegible? options with
  | some o => rfl
  | none =>
    show ((Tuning.default.after options).validate >>= fun _ => pure _) = _
    rw [validate_eq]
    cases (Tuning.default.after options).firstZero? with
    | some s => rfl
    | none => rfl

/-! ## What does not matter -/

theorem firstIllegible?_eq_none_iff :
    firstIllegible? options = none ↔ ∀ o ∈ options, legible o = true := by
  rw [firstIllegible?, List.find?_eq_none]
  simp

theorem after_congr (h : ∀ s, lastText? options s = lastText? options' s) :
    t.after options = t.after options' := by
  simp only [after, h]

/-- The verdict looks only at the first illegible option and at the last texts. -/
theorem verdict_congr (hbad : firstIllegible? options = firstIllegible? options')
    (hlast : ∀ s, lastText? options s = lastText? options' s) :
    verdict options = verdict options' := by
  rw [verdict, verdict, hbad, after_congr hlast]

theorem verdict_eq_ok_iff :
    verdict options = .ok t ↔
      (∀ o ∈ options, legible o = true) ∧ t.firstZero? = none ∧
        Tuning.default.after options = t := by
  rw [← firstIllegible?_eq_none_iff, verdict]
  cases firstIllegible? options with
  | some o => simp
  | none =>
    cases hzero : (Tuning.default.after options).firstZero? with
    | some s =>
      simp only [reduceCtorEq, true_and, false_iff, not_and]
      rintro hnone rfl
      rw [hzero] at hnone
      cases hnone
    | none =>
      simp only [Except.ok.injEq, true_and]
      constructor
      · rintro rfl
        exact ⟨hzero, rfl⟩
      · rintro ⟨-, h⟩
        exact h

/-- **Unknown keys do not matter.** -/
theorem verdict_filter_known (options : List (String × String)) :
    verdict (options.filter known) = verdict options := by
  have hunknown (o : String × String) :
      decide (known o = true ∧ (!legible o) = true) = !legible o := by
    unfold known legible
    cases Setting.ofKey? o.1 with
    | none => rfl
    | some s => simp
  have hunder (s : Setting) (o : String × String) :
      (decide (o.1 = s.key) && known o) = decide (o.1 = s.key) := by
    by_cases h : o.1 = s.key
    · rw [known, h, Setting.ofKey?_key]
      simp
    · simp [h]
  apply verdict_congr
  · rw [firstIllegible?, List.find?_filter]
    simp only [hunknown]
    rfl
  · intro s
    rw [lastText?, under, List.filter_filter, List.filter_congr fun o _ => hunder s o]
    rfl

/-- **A legible option that is overridden does not matter**, whatever count it has. -/
theorem verdict_of_overridden (hkey : o.1 = o'.1) (ho : legible o = true)
    (before between after : List (String × String)) :
    verdict (before ++ o :: (between ++ o' :: after)) =
      verdict (before ++ (between ++ o' :: after)) := by
  apply verdict_congr
  · rw [firstIllegible?, firstIllegible?, List.find?_append, List.find?_append,
      List.find?_cons_of_neg (by simp [ho])]
  · intro s
    have hcons (p : String × String) (l : List (String × String)) :
        lastText? (p :: l) s = (lastText? l s).or (lastText? [p] s) :=
      lastText?_append [p] l s
    rw [lastText?_append, lastText?_append, hcons o, lastText?_append between, hcons o',
      lastText?_singleton, lastText?_singleton, hkey]
    by_cases hs : o'.1 = s.key
    · rw [if_pos hs, if_pos hs]
      cases lastText? after s with
      | none => rfl
      | some text => rfl
    · rw [if_neg hs, if_neg hs, Option.or_none, Option.or_none]

/-- **The order of different keys does not matter** to options that succeed. -/
theorem verdict_eq_ok_of_under (h : ∀ key, under key options = under key options')
    (hok : verdict options = .ok t) : verdict options' = .ok t := by
  obtain ⟨hlegible, hzero, rfl⟩ := verdict_eq_ok_iff.mp hok
  refine verdict_eq_ok_iff.mpr ⟨fun o ho => hlegible o ?_, hzero, ?_⟩
  · have hmem : o ∈ under o.1 options' := List.mem_filter.mpr ⟨ho, by simp⟩
    rw [← h] at hmem
    exact (List.mem_filter.mp hmem).1
  · refine after_congr fun s => ?_
    rw [lastText?, lastText?, h]

/-! ## The options of a tuning value -/

/-- The count as the text of an option. -/
def textOf (n : UInt32) : String := String.ofList (Nat.toDigits 10 n.toNat)

/-- The text that a setting is published with. It is empty for a cap that is not set. -/
def text (t : Tuning) (s : Setting) : String := (t.get? s).elim "" textOf

/-- Every setting with its text. -/
def toOptions (t : Tuning) : List (String × String) := Setting.all.map fun s => (s.key, t.text s)

theorem trimmed_textOf (n : UInt32) : Text.trimmed (textOf n) = textOf n := by
  have hdigits : ∀ c ∈ Nat.toDigits 10 n.toNat, Text.isBlank c = false := fun c hc =>
    Text.isBlank_of_graphic (Text.graphic_of_isDigit
      (Nat.isDigit_of_mem_toDigits (by decide) (by decide) hc))
  rw [Text.trimmed, textOf, String.toList_ofList, Text.trim_eq_self hdigits]

theorem count?_textOf (n : UInt32) : count? (textOf n) = some n := by
  rw [count?, textOf, String.toList_ofList, Text.Decimal.signed?_toDigits, Option.bind_some,
    Text.Decimal.word32?_toNat]

theorem count_textOf (n : UInt32) : count (textOf n) = n := by
  rw [count, count?_textOf]
  rfl

theorem textOf_ne_empty (n : UInt32) : textOf n ≠ "" := by
  intro h
  have hread := count?_textOf n
  rw [h, count?_empty] at hread
  cases hread

theorem trimmed_text (t : Tuning) (s : Setting) : Text.trimmed (t.text s) = t.text s := by
  unfold text
  cases t.get? s with
  | none => decide
  | some n => exact trimmed_textOf n

/-- Every setting takes its own text. -/
theorem takes_text (t : Tuning) (s : Setting) : s.takes (t.text s) = true := by
  cases hs : t.get? s with
  | none =>
    obtain rfl : s = .gateCap := by
      cases s with
      | gateCap => rfl
      | _ => cases hs
    rw [text, hs]
    decide
  | some n =>
    rw [text, hs, Setting.takes]
    simp [count?_textOf]

theorem under_key_toOptions (t : Tuning) (s : Setting) :
    under s.key t.toOptions = [(s.key, t.text s)] := by
  have hall : Setting.all.filter (fun s' => s'.key = s.key) = [s] := by
    cases s with
    | _ => decide
  rw [under, toOptions, List.filter_map]
  show (Setting.all.filter fun s' => s'.key = s.key).map _ = _
  rw [hall]
  rfl

section

variable {keep : String × String → Bool} (hperm : options.Perm (t.toOptions.filter keep))
include hperm

theorem legible_of_perm : ∀ o ∈ options, legible o = true := by
  intro o ho
  have hmem := (List.mem_filter.mp (hperm.subset ho)).1
  obtain ⟨s, -, rfl⟩ := List.mem_map.mp hmem
  rw [legible, Setting.ofKey?_key, trimmed_text]
  exact takes_text t s

variable (hkeep : ∀ o, o.2 ≠ "" → keep o = true)
include hkeep

/-- Every setting has its own text as the last one, unless an empty text was left out. -/
theorem lastText?_of_perm (s : Setting) :
    lastText? options s = some (t.text s) ∨ t.text s = "" ∧ lastText? options s = none := by
  have hunder : (under s.key options).Perm ([(s.key, t.text s)].filter keep) := by
    rw [← under_key_toOptions, under, under, List.filter_comm]
    exact hperm.filter _
  by_cases h : keep (s.key, t.text s) = true
  · rw [List.filter_cons_of_pos h, List.filter_nil, List.perm_singleton] at hunder
    rw [lastText?, hunder]
    exact Or.inl (congrArg some (trimmed_text t s))
  · rw [List.filter_cons_of_neg h, List.filter_nil, List.perm_nil] at hunder
    rw [lastText?, hunder]
    refine Or.inr ⟨?_, rfl⟩
    by_contra htext
    exact h (hkeep _ htext)

/-- Each setting is read back from its text, and a cap that is not set is missing by default. -/
theorem after_of_perm : Tuning.default.after options = t := by
  have hlast := lastText?_of_perm hperm hkeep
  have hcount (s : Setting) (n d : UInt32) (hs : t.get? s = some n) :
      (lastText? options s).elim d count = n := by
    have htext : t.text s = textOf n := by rw [text, hs, Option.elim_some]
    rcases hlast s with h | ⟨h, -⟩
    · rw [h, htext, Option.elim_some, count_textOf]
    · exact absurd (htext.symm.trans h) (textOf_ne_empty n)
  have hcap : (lastText? options .gateCap).elim none count? = t.gateCap := by
    rcases hlast .gateCap with h | ⟨h, hnone⟩
    · rw [h, Option.elim_some, text]
      cases hs : t.gateCap with
      | none => rw [get?, hs, Option.elim_none, count?_empty]
      | some n => rw [get?, hs, Option.elim_some, count?_textOf]
    · rw [hnone, Option.elim_none]
      cases hs : t.gateCap with
      | none => rfl
      | some n => exact absurd h (by rw [text, get?, hs]; exact textOf_ne_empty n)
  have hb := hcount .buffersPerChannel t.buffersPerChannel Tuning.default.buffersPerChannel rfl
  have hf := hcount .floatingPerGate t.floatingPerGate Tuning.default.floatingPerGate rfl
  have hp := hcount .sortFanOut t.sortFanOut Tuning.default.sortFanOut rfl
  have hl := hcount .sortFloor t.sortFloor Tuning.default.sortFloor rfl
  rw [after, hb, hf, hp, hl]
  congr

/-- **The options of valid values come to these values**, in any order, and also without an empty
text. -/
theorem verdict_toOptions : verdict options = .ok t ↔ t.validate = .ok () := by
  rw [verdict_eq_ok_iff, validate_eq_ok_iff]
  constructor
  · rintro ⟨-, hzero, -⟩
    exact hzero
  · intro hzero
    exact ⟨legible_of_perm hperm, hzero, after_of_perm hperm hkeep⟩

end

/-- **What a sequence of options comes to** is its verdict. Options with unknown keys and legible
options that are overridden can be put in and taken out anywhere. Options of different keys can
change places without a change to what succeeds. What succeeds is valid, and all valid values are
had from their own options, in any order, whether an empty cap is written or left out. -/
theorem options_come_to_verdict (options : List (String × String)) :
    ofOptions options = verdict options ∧
    (∀ options', options.filter known = options'.filter known →
      ofOptions options = ofOptions options') ∧
    (∀ before o between o' after, options = before ++ o :: (between ++ o' :: after) → o.1 = o'.1 →
      legible o = true → ofOptions options = ofOptions (before ++ (between ++ o' :: after))) ∧
    (∀ options' t, (∀ key, under key options = under key options') →
      (ofOptions options = .ok t ↔ ofOptions options' = .ok t)) ∧
    (∀ t, ofOptions options = .ok t → t.validate = .ok ()) ∧
    ∀ t, options.Perm t.toOptions ∨ options.Perm (t.toOptions.filter fun o => o.2 ≠ "") →
      (ofOptions options = .ok t ↔ t.validate = .ok ()) := by
  refine ⟨ofOptions_eq_verdict options, ?_⟩
  simp only [ofOptions_eq_verdict]
  refine ⟨?_, ?_, ?_, ?_, ?_⟩
  · intro options' h
    rw [← verdict_filter_known options, h, verdict_filter_known]
  · rintro before o between o' after rfl hkey ho
    exact verdict_of_overridden hkey ho before between after
  · intro options' t h
    exact ⟨verdict_eq_ok_of_under h, verdict_eq_ok_of_under fun key => (h key).symm⟩
  · intro t h
    obtain ⟨-, hzero, -⟩ := verdict_eq_ok_iff.mp h
    exact validate_eq_ok_iff.mpr hzero
  · rintro t (hperm | hperm)
    · rw [← List.filter_true t.toOptions] at hperm
      exact verdict_toOptions hperm fun _ _ => rfl
    · exact verdict_toOptions hperm fun o ho => decide_eq_true ho

/-- A zero is no error if a later option overrides it, but an illegible text is. -/
example : ofOptions [(Setting.sortFloor.key, "0"), (Setting.gateCap.key, " 64 "),
      (Setting.sortFloor.key, "+7"), (Setting.gateCap.key, "")] = .ok { sortFloor := 7 } ∧
    ofOptions [(Setting.sortFanOut.key, "0"), (Setting.sortFloor.key, " -1 "),
      (Setting.sortFloor.key, "1")] = .error (.badValue Setting.sortFloor.key "-1") := by
  decide

end Tuning

end BufferPlan
