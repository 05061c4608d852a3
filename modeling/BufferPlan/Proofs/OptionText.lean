import BufferPlan.Proofs.Options
import BufferPlan.Proofs.Text.Decimal
import BufferPlan.Proofs.Text.Trim

/-!
# The text of one option

What is read from an option whose key is known depends on its text alone, and on no more of it than
is left without the blanks at its ends. That is either a count, or, for the cap, nothing at all; any
other text is refused with what was left of it.

* `Setting.takes_iff`: the texts that a setting takes.
* `Tuning.ofOptions_singleton`: what one option comes to.
* `Tuning.ReadsCount`: how an option is read, in terms of what is left of its text.
* **`Tuning.option_reads_count`**: every option with a known key is read so.
-/

namespace BufferPlan

open Text (Trims)
open Text.Decimal (Counts signed?_eq_some_iff word32?_eq_some_iff)

variable {s : Setting} {text v : String}

theorem Tuning.count?_eq_some_iff {n : UInt32} :
    count? text = some n ↔ Counts text.toList n.toNat := by
  rw [count?, Option.bind_eq_some_iff]
  constructor
  · rintro ⟨m, hm, hn⟩
    rw [word32?_eq_some_iff.mp hn]
    exact signed?_eq_some_iff.mp hm
  · intro h
    exact ⟨n.toNat, signed?_eq_some_iff.mpr h, word32?_eq_some_iff.mpr rfl⟩

namespace Setting

/-- The text is a count of 32 bits, or it is empty and stands for a cap that is not set. -/
def Takes (s : Setting) (text : String) : Prop :=
  (∃ n < UInt32.size, Counts text.toList n) ∨ text = "" ∧ s = gateCap

/-- **The texts that a setting takes.** -/
theorem takes_iff : s.takes text = true ↔ s.Takes text := by
  have hcount : (Tuning.count? text).isSome = true ↔ ∃ n < UInt32.size, Counts text.toList n := by
    rw [Option.isSome_iff_exists]
    constructor
    · rintro ⟨n, hn⟩
      exact ⟨n.toNat, n.toNat_lt, Tuning.count?_eq_some_iff.mp hn⟩
    · rintro ⟨n, hlt, hn⟩
      refine ⟨UInt32.ofNatLT n hlt, Tuning.count?_eq_some_iff.mpr ?_⟩
      rwa [UInt32.toNat_ofNatLT]
  rw [takes, Takes, Bool.or_eq_true, hcount, Bool.and_eq_true, beq_iff_eq, String.isEmpty_iff,
    or_comm, and_comm]

end Setting

namespace Tuning

/-! ## One option -/

/-- **What one option comes to.** A legible one is checked with the value that it sets, and any
other is refused. -/
theorem ofOptions_singleton (o : String × String) :
    ofOptions [o] =
      if legible o then (default.after [o]).validate.map fun _ => default.after [o]
      else .error (.badValue o.1 (Text.trimmed o.2)) := by
  rw [ofOptions, foldlM_readOption, firstIllegible?]
  cases ho : legible o with
  | false =>
    rw [List.find?_cons_of_pos (by simp [ho])]
    rfl
  | true =>
    rw [List.find?_cons_of_neg (by simp [ho])]
    show ((Tuning.default.after [o]).validate >>= fun _ => pure _) = _
    cases (Tuning.default.after [o]).validate with
    | error e => rfl
    | ok u => rfl

theorem legible_key : legible (s.key, v) = s.takes (Text.trimmed v) := by
  rw [legible, Setting.ofKey?_key]

/-- The setting has the count that its option denotes. A cap has none if the text is empty. -/
theorem get?_after_self (h : s.takes (Text.trimmed v) = true) :
    (default.after [(s.key, v)]).get? s = count? (Text.trimmed v) := by
  have hlast : lastText? [(s.key, v)] s = some (Text.trimmed v) := by
    rw [lastText?_singleton, if_pos rfl]
  generalize Text.trimmed v = text at h hlast
  cases s with
  | gateCap => simp [get?, after, hlast]
  | _ =>
    obtain ⟨n, hn⟩ := Option.isSome_iff_exists.mp h
    simp [get?, after, hlast, count, hn]

/-- The other settings have their defaults. -/
theorem get?_after_of_ne {s' : Setting} (h : s' ≠ s) :
    (default.after [(s.key, v)]).get? s' = default.get? s' := by
  have hlast : lastText? [(s.key, v)] s' = none := by
    rw [lastText?_singleton, if_neg fun hkey => h (Setting.key_inj.mp hkey).symm]
  cases s' with
  | _ => simp [get?, after, hlast]

/-! ## Texts that are refused -/

/-- A character that is neither a digit nor a plus sign, such as a minus sign, a blank or a digit of
another script, makes a text illegible, as does a sign without digits. -/
theorem not_counts_of_mem {text : List Char} {c : Char} (hc : c ∈ text) (hdigit : c.isDigit = false)
    (hplus : c ≠ '+') (n : Nat) : ¬Counts text n := by
  rintro ⟨sign, ds, rfl, hsign, hds⟩
  rcases List.mem_append.mp hc with hc | hc
  · fin_cases hsign
    · cases hc
    · exact hplus (List.mem_singleton.mp hc)
  · exact Bool.false_ne_true (hdigit.symm.trans (hds.digits.2 c hc))

theorem not_counts_plus (n : Nat) : ¬Counts ['+'] n := by
  intro h
  have hread := signed?_eq_some_iff.mpr h
  rw [show Text.Decimal.signed? ['+'] = none from rfl] at hread
  cases hread

/-! ## The law -/

/-- How an option with the key of a setting is read, if `text` is what is left of its own text `v`
without the blanks at the ends. -/
structure ReadsCount (s : Setting) (v text : String) : Prop where
  /-- It is not refused as illegible just if the setting takes what is left. -/
  legible_iff : (¬∃ k t, ofOptions [(s.key, v)] = .error (.badValue k t)) ↔ s.Takes text
  /-- A count is what the setting has when the ranges are checked. The others are as they were. -/
  sets : ∀ n : UInt32, Counts text.toList n.toNat → ∃ u : Tuning, u.get? s = some n ∧
    (∀ s' ≠ s, u.get? s' = default.get? s') ∧ ofOptions [(s.key, v)] = u.validate.map fun _ => u
  /-- Nothing at all leaves the cap unset. -/
  clears : text = "" → s = .gateCap → ofOptions [(s.key, v)] = .ok default
  /-- Whatever else it is, it is refused with what is left. -/
  refuses : ¬s.Takes text → ofOptions [(s.key, v)] = .error (.badValue s.key text)
  /-- So are a plus sign alone, a text with any character that is neither a digit nor a plus sign,
  and a count of more than 32 bits. -/
  refuses_strange : text = "+" ∨ (∃ c ∈ text.toList, c.isDigit = false ∧ c ≠ '+') ∨
    (∃ n, UInt32.size ≤ n ∧ Counts text.toList n) →
    ofOptions [(s.key, v)] = .error (.badValue s.key text)

theorem not_takes_of_strange (h : text = "+" ∨ (∃ c ∈ text.toList, c.isDigit = false ∧ c ≠ '+') ∨
    ∃ n, UInt32.size ≤ n ∧ Counts text.toList n) : ¬s.Takes text := by
  rintro (⟨n, hlt, hn⟩ | ⟨rfl, -⟩)
  · rcases h with rfl | ⟨c, hc, hdigit, hplus⟩ | ⟨m, hle, hm⟩
    · exact not_counts_plus n hn
    · exact not_counts_of_mem hc hdigit hplus n hn
    · rw [hm.eq hn] at hle
      omega
  · rcases h with h | ⟨c, hc, -, -⟩ | ⟨m, -, hm⟩
    · exact absurd h (by decide)
    · cases hc
    · have hread := signed?_eq_some_iff.mpr hm
      cases hread

theorem readsCount_trimmed (s : Setting) (v : String) : ReadsCount s v (Text.trimmed v) := by
  have hrun := ofOptions_singleton (s.key, v)
  rw [legible_key] at hrun
  have refuses (h : ¬s.Takes (Text.trimmed v)) :
      ofOptions [(s.key, v)] = .error (.badValue s.key (Text.trimmed v)) := by
    rw [hrun, if_neg (mt Setting.takes_iff.mp h)]
  have takes (h : s.Takes (Text.trimmed v)) : ofOptions [(s.key, v)] =
      (default.after [(s.key, v)]).validate.map fun _ => default.after [(s.key, v)] := by
    rw [hrun, if_pos (Setting.takes_iff.mpr h)]
  constructor
  case legible_iff =>
    constructor
    · intro h
      by_contra hnot
      exact h ⟨_, _, refuses hnot⟩
    · rintro h ⟨k, t, herror⟩
      rw [takes h, validate_eq] at herror
      split at herror <;> cases herror
  case sets =>
    intro n hn
    have htakes : s.Takes (Text.trimmed v) := Or.inl ⟨n.toNat, n.toNat_lt, hn⟩
    refine ⟨default.after [(s.key, v)], ?_, fun s' => get?_after_of_ne, takes htakes⟩
    rw [get?_after_self (Setting.takes_iff.mpr htakes)]
    exact count?_eq_some_iff.mpr hn
  case clears =>
    rintro htext rfl
    have hafter : default.after [(Setting.gateCap.key, v)] = { default with gateCap := none } := by
      simp [after, lastText?_singleton, Setting.key_inj, htext, count?_empty]
    -- no cap is the default
    rw [takes (Or.inr ⟨htext, rfl⟩), hafter]
    rfl
  case refuses => exact refuses
  case refuses_strange => exact fun h => refuses (not_takes_of_strange h)

/-- **Every option with a known key is read by what is left of its text**, which is one text, and
the grammar of counts tells the rest. -/
theorem option_reads_count (s : Setting) (v : String) :
    Trims v.toList (Text.trimmed v).toList ∧
      ∀ text : String, Trims v.toList text.toList → ReadsCount s v text := by
  refine ⟨?_, fun text htext => ?_⟩
  · rw [Text.trimmed, String.toList_ofList]
    exact Text.trim_eq_iff.mp rfl
  · have hleft : Text.trimmed v = text := by
      rw [Text.trimmed, Text.trim_eq_iff.mpr htext, String.ofList_toList]
    exact hleft ▸ readsCount_trimmed s v

/-- Zeros in front and a plus sign make no difference, but two plus signs are too many. -/
example : ofOptions [(Setting.sortFloor.key, "\u3000+000000000000007\t")] = .ok { sortFloor := 7 } ∧
    ofOptions [(Setting.sortFloor.key, " ++7 ")] = .error (.badValue Setting.sortFloor.key "++7") ∧
    ofOptions [(Setting.sortFloor.key, "4294967296")] =
      .error (.badValue Setting.sortFloor.key "4294967296") := by
  decide

end Tuning

end BufferPlan
