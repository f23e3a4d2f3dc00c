import Mathlib
import CodeGraph.NodeId

/-!
# Reading identifiers back

The text of an identifier is its decimal, and reading it gives the identifier back
(`NodeId.parse_text`).  So different identifiers have different texts.  A string is a canonical
decimal exactly when it is the text of the identifier that it stands for
(`NodeId.isNumeric_iff`).

What a canonical decimal is can also be said without the reader: one or more digits, of which
the first is no zero unless it is the only one (`NodeId.IsDecimal`), with a value that counts
each digit by its place (`NodeId.placeValue`).  These are the strings that are read as numbers,
up to the greatest identifier, and each of them is read as its value
(`NodeId.isNumeric_exact`).
-/

namespace CodeGraph.NodeId

/-! ### The text of an identifier -/

lemma toList_text (id : NodeId) : id.text.toList = Nat.toDigits 10 id.toNat :=
  Nat.toList_repr

lemma isDigit_of_mem_toDigits {n : Nat} {c : Char} (h : c ∈ Nat.toDigits 10 n) :
    isDigit c := by
  have hdigit := Nat.isDigit_of_mem_toDigits (by decide) (by decide) h
  simpa [Char.isDigit, isDigit, Char.le_def] using hdigit

lemma digitsValue_toDigits (n : Nat) : digitsValue (Nat.toDigits 10 n) = n := by
  have hvalue := Nat.ofDigitChars_toDigits (b := 10) (n := n) (by decide) (by decide)
  simpa [digitsValue, Nat.ofDigitChars_eq_foldl, Nat.mul_comm] using hvalue

/-- The text of an identifier is a numeral with its value. -/
lemma numeral?_text (id : NodeId) : numeral? id.text = some id := by
  have hdigits : (Nat.toDigits 10 id.toNat).all isDigit :=
    List.all_eq_true.2 fun c hc => isDigit_of_mem_toDigits hc
  have hvalue : digitsValue (Nat.toDigits 10 id.toNat) = id.toNat := digitsValue_toDigits _
  unfold numeral?
  rw [toList_text]
  -- The first character is a digit, so there is no sign to drop.
  split
  · next cs hcs =>
    rw [hcs] at hdigits
    simp [isDigit] at hdigits
  · simp [hdigits, hvalue, id.toNat_lt]

/-- Reading the text of an identifier gives the identifier back. -/
@[simp] theorem parse_text (id : NodeId) : parse id.text = id := by
  simp [parse, canonical?, numeral?_text, Option.filter]

theorem text_injective : Function.Injective text :=
  Function.LeftInverse.injective parse_text

/-- A canonical decimal is the text of the identifier that it stands for. -/
theorem isNumeric_iff {s : String} : isNumeric s = true ↔ (parse s).text = s := by
  unfold isNumeric parse
  constructor
  · intro hnumeric
    obtain ⟨id, hid⟩ := Option.isSome_iff_exists.1 hnumeric
    rw [hid, Option.getD_some]
    exact of_decide_eq_true (Option.filter_eq_some_iff.1 hid).2
  · intro htext
    rw [← htext, canonical?, numeral?_text]
    simp [Option.filter]

/-! ### Decimals -/

/-- The value of a decimal digit. -/
def digitValue (c : Char) : Nat :=
  c.toNat - '0'.toNat

/-- The number that decimal digits write by their places, where the last one counts units. -/
def placeValue (cs : List Char) : Nat :=
  Nat.ofDigits 10 (cs.reverse.map digitValue)

/-- A decimal is made of one or more digits, and none but zero itself starts with a zero. -/
structure IsDecimal (cs : List Char) : Prop where
  ne_nil : cs ≠ []
  digits : ∀ c ∈ cs, c.isDigit
  unpadded : cs.head? = some '0' → cs = ['0']

instance : DecidablePred IsDecimal := fun cs =>
  decidable_of_iff (cs ≠ [] ∧ cs.all Char.isDigit ∧ (cs.head? = some '0' → cs = ['0']))
    ⟨fun h => ⟨h.1, List.all_eq_true.1 h.2.1, h.2.2⟩,
      fun h => ⟨h.ne_nil, List.all_eq_true.2 h.digits, h.unpadded⟩⟩

lemma placeValue_concat (cs : List Char) (c : Char) :
    placeValue (cs ++ [c]) = 10 * placeValue cs + digitValue c := by
  simp [placeValue, Nat.ofDigits_cons, Nat.add_comm]

/-- Reading digits from the first to the last counts each one by its place. -/
lemma digitsValue_eq_placeValue (cs : List Char) : digitsValue cs = placeValue cs := by
  induction cs using List.reverseRecOn with
  | nil => rfl
  | append_singleton cs c ih =>
    calc digitsValue (cs ++ [c])
        = 10 * digitsValue cs + digitValue c := by
          simp [digitsValue, digitValue, Nat.mul_comm]
      _ = placeValue (cs ++ [c]) := by rw [ih, placeValue_concat]

lemma placeValue_toDigits (n : Nat) : placeValue (Nat.toDigits 10 n) = n := by
  rw [← digitsValue_eq_placeValue, digitsValue_toDigits]

/-- Only the digits of zero start with a zero. -/
lemma eq_zero_of_head?_toDigits {n : Nat} (h : (Nat.toDigits 10 n).head? = some '0') :
    n = 0 := by
  induction n using Nat.base_induction 10 (by decide) with
  | single n hn => simpa [Nat.toDigits_of_lt_base hn] using h
  | digit n d hd hn ih =>
    rw [← Nat.toDigits_append_toDigits (by decide) hn hd,
      List.head?_append_of_ne_nil _ Nat.toDigits_ne_nil] at h
    exact absurd (ih h) hn.ne'

/-- The digits of a number are a decimal. -/
lemma isDecimal_toDigits (n : Nat) : IsDecimal (Nat.toDigits 10 n) where
  ne_nil := Nat.toDigits_ne_nil
  digits _ hc := Nat.isDigit_of_mem_toDigits (by decide) (by decide) hc
  unpadded h := by rw [eq_zero_of_head?_toDigits h, Nat.toDigits_zero]

lemma digitValue_lt {c : Char} (h : c.isDigit) : digitValue c < 10 := by
  have hupto : c.toNat ≤ 57 := (Char.isDigit_iff_toNat.1 h).2
  simp only [digitValue, Char.reduceToNat]
  omega

/-- A digit is the one that is written for its value. -/
lemma toDigits_digitValue {c : Char} (h : c.isDigit) :
    Nat.toDigits 10 (digitValue c) = [c] := by
  have hfrom : 48 ≤ c.toNat := (Char.isDigit_iff_toNat.1 h).1
  have hchar : (digitValue c).digitChar = c := by
    rw [← Char.toNat_inj, Nat.toNat_digitChar_of_lt_ten (digitValue_lt h)]
    simp only [digitValue, Char.reduceToNat]
    omega
  rw [Nat.toDigits_of_lt_base (digitValue_lt h), hchar]

/-- More than one digit of a decimal cannot start with a zero. -/
lemma IsDecimal.head?_ne {cs : List Char} {c : Char} (h : IsDecimal (cs ++ [c]))
    (hcs : cs ≠ []) : cs.head? ≠ some '0' := by
  intro hzero
  have hall : cs ++ [c] = [] ++ ['0'] :=
    h.unpadded (by rw [List.head?_append_of_ne_nil _ hcs, hzero])
  exact hcs (List.append_inj_left' hall rfl)

/-- A decimal has the digits of its value, so no other decimal has this value. -/
theorem IsDecimal.toDigits_placeValue {cs : List Char} (h : IsDecimal cs) :
    Nat.toDigits 10 (placeValue cs) = cs := by
  induction cs using List.reverseRecOn with
  | nil => exact absurd rfl h.ne_nil
  | append_singleton cs c ih =>
    have hdigit : c.isDigit := h.digits c (by simp)
    have hlast : Nat.toDigits 10 (digitValue c) = [c] := toDigits_digitValue hdigit
    -- A single digit may be a zero; what stands before the last of several digits is positive.
    by_cases hcs : cs = []
    · subst hcs
      simpa [placeValue] using hlast
    · have hhead : cs.head? ≠ some '0' := h.head?_ne hcs
      have hfront : Nat.toDigits 10 (placeValue cs) = cs :=
        ih ⟨hcs, fun d hd => h.digits d (List.mem_append_left _ hd), fun hzero =>
          absurd hzero hhead⟩
      have hpos : 0 < placeValue cs := by
        refine Nat.pos_of_ne_zero fun hzero => hhead ?_
        rw [← hfront, hzero, Nat.toDigits_zero, List.head?_cons]
      rw [placeValue_concat, ← Nat.toDigits_append_toDigits (by decide) hpos
        (digitValue_lt hdigit), hfront, hlast]

/-! ### What is read as a number -/

lemma bound_eq : bound = 2 ^ 128 := by
  decide

lemma toList_of_isNumeric {s : String} (h : isNumeric s = true) :
    s.toList = Nat.toDigits 10 (parse s).toNat := by
  rw [← toList_text, isNumeric_iff.1 h]

/-- The strings that are read as numbers are the decimals up to the greatest identifier. -/
lemma isNumeric_iff_isDecimal {s : String} :
    isNumeric s = true ↔ IsDecimal s.toList ∧ placeValue s.toList < bound := by
  constructor
  · intro hnumeric
    rw [toList_of_isNumeric hnumeric, placeValue_toDigits]
    exact ⟨isDecimal_toDigits _, (parse s).toNat_lt⟩
  · rintro ⟨hdecimal, hlt⟩
    have htext : (⟨placeValue s.toList, hlt⟩ : NodeId).text = s := by
      rw [← String.toList_inj, toList_text, hdecimal.toDigits_placeValue]
    rw [isNumeric_iff, ← htext, parse_text]

lemma toNat_parse_of_isNumeric {s : String} (h : isNumeric s = true) :
    (parse s).toNat = placeValue s.toList := by
  rw [toList_of_isNumeric h, placeValue_toDigits]

/-- A string is read as a number exactly if it is a decimal without leading zeros of a number
below 2¹²⁸, and then it is read as this number.  Every such number is read from its decimal, and
no two strings are read as the same number. -/
theorem isNumeric_exact :
    (∀ s : String, isNumeric s = true ↔
      IsDecimal s.toList ∧ placeValue s.toList < 2 ^ 128) ∧
    (∀ s : String, isNumeric s = true → (parse s).toNat = placeValue s.toList) ∧
    (∀ n < 2 ^ 128, (parse (toString n)).toNat = n) ∧
    ∀ s t : String, isNumeric s = true → isNumeric t = true → s ≠ t → parse s ≠ parse t := by
  rw [← bound_eq]
  refine ⟨fun _ => isNumeric_iff_isDecimal, fun _ => toNat_parse_of_isNumeric, ?_, ?_⟩
  · intro n hn
    have hback : parse (text ⟨n, hn⟩) = ⟨n, hn⟩ := parse_text _
    exact congrArg toNat hback
  · intro s t hs ht hne hsame
    apply hne
    calc s = (parse s).text := (isNumeric_iff.1 hs).symm
      _ = (parse t).text := by rw [hsame]
      _ = t := isNumeric_iff.1 ht

/-- The greatest identifier is read from its decimal, and the number after it is no identifier any
more.  A leading zero or a sign makes a name of a number. -/
theorem isNumeric_exact_greatest :
    isNumeric "340282366920938463463374607431768211455" = true ∧
      (parse "340282366920938463463374607431768211455").toNat = 2 ^ 128 - 1 ∧
      (parse (toString (2 ^ 128 - 1))).toNat = 2 ^ 128 - 1 ∧
      isNumeric "340282366920938463463374607431768211456" = false ∧
      isNumeric "007" = false ∧ isNumeric "+7" = false ∧ isNumeric "0" = true ∧
      parse "340282366920938463463374607431768211455" ≠ parse "0" := by
  obtain ⟨hexact, hvalue, htext, hdistinct⟩ := isNumeric_exact
  have hgreatest : isNumeric "340282366920938463463374607431768211455" = true := by
    decide +kernel
  have hzero : isNumeric "0" = true := by decide
  have hbelow : 2 ^ 128 - 1 < 2 ^ 128 := by decide
  have hbeyond : ¬ placeValue "340282366920938463463374607431768211456".toList < 2 ^ 128 := by
    decide +kernel
  have hpadded : ¬ IsDecimal "007".toList := by decide
  have hsigned : ¬ IsDecimal "+7".toList := by decide
  refine ⟨hgreatest, ?_, htext _ hbelow, ?_, ?_, ?_, hzero, ?_⟩
  · rw [hvalue _ hgreatest]
    rfl
  · exact Bool.eq_false_iff.2 fun hnext => hbeyond ((hexact _).1 hnext).2
  · exact Bool.eq_false_iff.2 fun hnumeric => hpadded ((hexact _).1 hnumeric).1
  · exact Bool.eq_false_iff.2 fun hnumeric => hsigned ((hexact _).1 hnumeric).1
  · exact hdistinct _ _ hgreatest hzero (by decide)

end CodeGraph.NodeId
