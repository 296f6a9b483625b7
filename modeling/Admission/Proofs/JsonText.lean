/-
A JSON value is found again in its text.

The text of a value is a beginning that the reader recognises, and wherever the reader stops
inside it, it stands in front of a comma, a bracket or the end (`Json.Stops`). So reading goes
back over what writing did, character by character within quotes (`stringFrom?_escape`), digit
by digit (`number?_int`), and value by value (`valueFrom?_text`). The only values without such a
text are those that hold a number with a point or an exponent, which is kept as it was written.
-/
import Admission.Json.Printer
import Admission.Json.Reader
import Admission.Proofs.TextLaws

set_option autoImplicit false

namespace Admission

namespace Json

/-! ## Where a value stops -/

/-- A text that no value goes on into: it is at an end, a comma or a closing bracket. -/
def Stops (rest : List Char) : Prop := ∀ c, rest.head? = some c → c = ',' ∨ c = ']' ∨ c = '\x7d'

theorem stops_nil : Stops [] := by
  intro c hc
  cases hc

theorem stops_cons {c : Char} (h : c = ',' ∨ c = ']' ∨ c = '\x7d') (rest : List Char) :
    Stops (c :: rest) := by
  rintro _ ⟨⟩
  exact h

variable {rest : List Char}

/-- Where a value stops, no further digit comes. -/
theorem Stops.not_isDigit (h : Stops rest) {c : Char} (hc : rest.head? = some c) :
    Text.isDigit c = false := by
  rcases h c hc with rfl | rfl | rfl <;> decide

/-- So the digits of a number are taken all, and nothing behind them. -/
theorem takeDigits_append {digits : List Char} (h : ∀ c ∈ digits, c.isDigit = true)
    (hrest : Stops rest) : takeDigits (digits ++ rest) = (digits, rest) := by
  have hdigits : ∀ c ∈ digits, Text.isDigit c = true := fun c hc => Text.isDigit_of_isDigit (h c hc)
  have htake : rest.takeWhile Text.isDigit = [] ∧ rest.dropWhile Text.isDigit = rest := by
    cases rest with
    | nil => exact ⟨rfl, rfl⟩
    | cons c rest =>
      have hc : Text.isDigit c = false := hrest.not_isDigit rfl
      exact ⟨List.takeWhile_cons_of_neg (by simp [hc]), List.dropWhile_cons_of_neg (by simp [hc])⟩
  rw [takeDigits, List.takeWhile_append_of_pos hdigits, List.dropWhile_append_of_pos hdigits,
    htake.1, htake.2, List.append_nil]

/-- A number that stops has no fraction. -/
theorem fraction?_of_stops (h : Stops rest) : fraction? rest = some ([], rest) := by
  unfold fraction?
  split
  · rcases h '.' rfl with hc | hc | hc <;> cases hc
  · rfl

/-- Nor does it have an exponent. -/
theorem exponent?_of_stops (h : Stops rest) : exponent? rest = some ([], rest) := by
  unfold exponent?
  split
  · rename_i e rest
    rw [if_neg]
    rintro (rfl | rfl) <;> rcases h _ rfl with hc | hc | hc <;> cases hc
  · rfl

/-! ## Numbers -/

/-- The characters of a whole number. -/
theorem toList_toString_nat (n : Nat) :
    (toString (Int.ofNat n)).toList = Nat.toDigits 10 n := by
  rw [Int.toString_eq_repr, Int.repr, Nat.toList_repr]

theorem toList_toString_negSucc (n : Nat) :
    (toString (Int.negSucc n)).toList = '-' :: Nat.toDigits 10 (n + 1) := by
  rw [Int.toString_eq_repr, Int.repr, String.toList_append, Nat.toList_repr]
  rfl

theorem isDigit_of_mem_toDigits {n : Nat} {c : Char} (h : c ∈ Nat.toDigits 10 n) :
    c.isDigit = true := Nat.isDigit_of_mem_toDigits (by decide) (by decide) h

/-- Numbers are written with some digit, and without zeros in front. -/
theorem not_leading_zero (n : Nat) :
    ¬ ((Nat.toDigits 10 n).isEmpty = true ∨
      1 < (Nat.toDigits 10 n).length ∧ (Nat.toDigits 10 n).head? = some '0') := by
  rintro (hempty | ⟨hlength, hhead⟩)
  · exact Nat.toDigits_ne_nil (List.isEmpty_iff.1 hempty)
  · rcases Nat.eq_zero_or_pos n with rfl | hpos
    · revert hlength
      decide
    · exact head?_toDigits_ne hpos hhead

/-- No digit is a sign. -/
theorem exists_cons_toDigits (n : Nat) :
    ∃ d ds, Nat.toDigits 10 n = d :: ds ∧ d.isDigit = true ∧ d ≠ '-' ∧ d ≠ '+' := by
  obtain ⟨d, ds, hds⟩ := List.exists_cons_of_ne_nil (@Nat.toDigits_ne_nil n 10)
  have hd : d.isDigit = true := isDigit_of_mem_toDigits (n := n) (by simp [hds])
  refine ⟨d, ds, hds, hd, ?_, ?_⟩ <;> rintro rfl <;> cases hd

/-- A number that is digits alone, perhaps after a minus sign. -/
theorem number?_of_digits (sign : List Char) (n : Nat) (hsign : sign = [] ∨ sign = ['-'] ∧ 0 < n)
    (h : Stops rest) :
    number? (sign ++ (Nat.toDigits 10 n ++ rest)) =
      (Text.signed? 10 (sign ++ Nat.toDigits 10 n)).map (int ·, rest) := by
  obtain ⟨d, ds, hds, -, hminus, -⟩ := exists_cons_toDigits n
  unfold number?
  split
  rename_i negative body hsplit
  have hbody : (negative, body) = (!sign.isEmpty, Nat.toDigits 10 n ++ rest) := by
    rw [← hsplit]
    rcases hsign with rfl | ⟨rfl, -⟩
    · split
      · rename_i heq
        rw [List.nil_append, hds] at heq
        cases heq
        exact absurd rfl hminus
      · rfl
    · rfl
  have hminusZero : ¬ ((!sign.isEmpty) = true ∧ Nat.toDigits 10 n = ['0']) := by
    rintro ⟨hnegative, hdigits⟩
    rcases hsign with rfl | ⟨rfl, hpos⟩
    · cases hnegative
    · exact head?_toDigits_ne hpos (by rw [hdigits]; rfl)
  have hkept : (if (!sign.isEmpty) = true then ['-'] else []) = sign := by
    rcases hsign with rfl | ⟨rfl, -⟩ <;> rfl
  cases hbody
  rw [takeDigits_append (fun c hc => isDigit_of_mem_toDigits hc) h]
  dsimp only
  rw [if_neg (not_leading_zero n), fraction?_of_stops h]
  dsimp only
  rw [exponent?_of_stops h]
  dsimp only
  rw [if_pos ⟨rfl, rfl, hminusZero⟩, hkept]

/-- **A whole number is read as it was written.** -/
theorem number?_int (n : Int) (h : Stops rest) :
    number? ((toString n).toList ++ rest) = some (int n, rest) := by
  cases n with
  | ofNat m =>
    obtain ⟨d, ds, hds, -, hminus, hplus⟩ := exists_cons_toDigits m
    have hread := number?_of_digits [] m (.inl rfl) h
    rw [List.nil_append, List.nil_append, Text.signed?,
      Text.numeral?_toDigits (by decide) (by decide)] at hread
    · rwa [toList_toString_nat]
    · rw [hds]
      rintro _ ⟨⟩
      exact hplus rfl
    · rw [hds]
      rintro _ ⟨⟩
      exact hminus rfl
  | negSucc m =>
    have hread := number?_of_digits ['-'] (m + 1) (.inr ⟨rfl, Nat.succ_pos m⟩) h
    rw [List.singleton_append, List.singleton_append, Text.signed?,
      Text.numeral?_toDigits (by decide) (by decide)] at hread
    rwa [toList_toString_negSucc]

/-- A whole number starts with a digit or a minus sign. -/
theorem exists_cons_toString (n : Int) :
    ∃ c cs, (toString n).toList = c :: cs ∧ (c = '-' ∨ c.isDigit = true) := by
  cases n with
  | ofNat m =>
    obtain ⟨d, ds, hds, hd, -, -⟩ := exists_cons_toDigits m
    exact ⟨d, ds, by rw [toList_toString_nat, hds], .inr hd⟩
  | negSucc m => exact ⟨'-', _, toList_toString_negSucc m, .inl rfl⟩

/-! ## Texts between quotes -/

/-- A hexadecimal digit is read as the number that it writes. -/
theorem digit?_hex : ∀ d < 16,
    Text.digit? 16 (Char.ofNat (if d < 10 then 48 + d else 87 + d)) = some d := by
  decide

/-- Four hexadecimal digits are read as the unit that they write. -/
theorem unit?_hex4 {n : Nat} (hn : n < 65536) (rest : List Char) :
    unit? (hex4 n ++ rest) = some (n, rest) := by
  have hdigits : Text.digits? 16 0 (hex4 n) = some n := by
    simp only [hex4, List.map_cons, List.map_nil, Text.digits?, digit?_hex (n / 4096 % 16) (by omega),
      digit?_hex (n / 256 % 16) (by omega), digit?_hex (n / 16 % 16) (by omega),
      digit?_hex (n % 16) (by omega), Option.some.injEq]
    omega
  have htake : (hex4 n ++ rest).take 4 = hex4 n := rfl
  have hdrop : (hex4 n ++ rest).drop 4 = rest := rfl
  unfold unit?
  dsimp only
  rw [htake, hdrop, hdigits, if_neg (by simp [hex4])]
  rfl

/-- A unit outside the surrogates stands for a character alone. -/
theorem unicodeEscape?_hex4 {n : Nat} (hn : n < 65536) (hsingle : n < 0xD800 ∨ 0xDFFF < n)
    (rest : List Char) : unicodeEscape? (hex4 n ++ rest) = some (Char.ofNat n, rest) := by
  unfold unicodeEscape?
  rw [unit?_hex4 hn]
  dsimp only
  rw [if_pos hsingle]

/-- Two units stand for a character together. -/
theorem unicodeEscape?_pair {m : Nat} (hm : m < 0x100000) (rest : List Char) :
    unicodeEscape? (hex4 (0xD800 + m / 0x400) ++ (escapeUnit (0xDC00 + m % 0x400) ++ rest)) =
      some (Char.ofNat (0x10000 + m), rest) := by
  have hlow : escapeUnit (0xDC00 + m % 0x400) ++ rest =
      '\x5c' :: 'u' :: (hex4 (0xDC00 + m % 0x400) ++ rest) := rfl
  unfold unicodeEscape?
  rw [hlow, unit?_hex4 (by omega)]
  dsimp only
  rw [if_neg (by omega), if_neg (by omega)]
  simp only [unit?_hex4 (n := 0xDC00 + m % 0x400) (by omega)]
  have hsum : 0x10000 + (0xD800 + m / 0x400 - 0xD800) * 0x400 + (0xDC00 + m % 0x400 - 0xDC00) =
      0x10000 + m := by omega
  rw [if_pos (by omega), hsum]

/-- An escaped unit is read as its character, and reading goes on behind it. -/
theorem stringFrom?_escape {fuel : Nat} {read digits rest : List Char} {c : Char}
    (h : unicodeEscape? digits = some (c, rest)) :
    stringFrom? (fuel + 1) read ('\x5c' :: 'u' :: digits) = stringFrom? fuel (c :: read) rest := by
  rw [stringFrom?, if_neg (by decide), if_neg (by decide), if_pos rfl, h]

/-- **Reading a character goes back over its escape.** -/
theorem stringFrom?_escapeChar (ascii : Bool) (fuel : Nat) (read : List Char) (c : Char)
    (rest : List Char) :
    stringFrom? (fuel + 1) read (escapeChar ascii c ++ rest) = stringFrom? fuel (c :: read) rest := by
  have hc : ∀ d : Char, c.toNat = d.toNat → c = d := fun d h => Char.toNat_inj.1 h
  have hvalid : c.toNat < 0xD800 ∨ 0xDFFF < c.toNat ∧ c.toNat < 0x110000 := c.valid
  unfold escapeChar
  dsimp only
  by_cases hquote : c.toNat = 0x22
  · rw [if_pos hquote, hc '\x22' hquote]
    rfl
  by_cases hslash : c.toNat = 0x5C
  · rw [if_pos hslash, hc '\x5c' hslash]
    rfl
  by_cases hback : c.toNat = 8
  · rw [if_pos hback, hc '\x08' hback]
    rfl
  by_cases htab : c.toNat = 9
  · rw [if_pos htab, hc '\t' htab]
    rfl
  by_cases hline : c.toNat = 10
  · rw [if_pos hline, hc '\n' hline]
    rfl
  by_cases hfeed : c.toNat = 12
  · rw [if_pos hfeed, hc '\x0c' hfeed]
    rfl
  by_cases hreturn : c.toNat = 13
  · rw [if_pos hreturn, hc '\r' hreturn]
    rfl
  rw [if_neg hquote, if_neg hslash, if_neg hback, if_neg htab, if_neg hline, if_neg hfeed,
    if_neg hreturn]
  by_cases hcontrol : c.toNat < 0x20
  · rw [if_pos hcontrol, escapeUnit, List.cons_append, List.cons_append,
      stringFrom?_escape (unicodeEscape?_hex4 (by omega) (by omega) rest), Char.ofNat_toNat]
  by_cases hplain : c.toNat < 0x7F ∨ ascii = false
  · -- a character that stands for itself is neither a quote nor a backslash
    have hne : ∀ d : Char, c.toNat ≠ d.toNat → c ≠ d := fun d h heq => h (congrArg Char.toNat heq)
    rw [if_neg hcontrol, if_pos hplain, List.singleton_append, stringFrom?.eq_def]
    dsimp only
    rw [if_neg (hne '\x22' hquote), if_neg hcontrol, if_neg (hne '\x5c' hslash)]
  rw [if_neg hcontrol, if_neg hplain]
  by_cases hunit : c.toNat < 0x10000
  · rw [if_pos hunit, escapeUnit, List.cons_append, List.cons_append,
      stringFrom?_escape (unicodeEscape?_hex4 hunit (by omega) rest), Char.ofNat_toNat]
  · have hsmall : c.toNat - 0x10000 < 0x100000 := by omega
    rw [if_neg hunit, List.append_assoc, escapeUnit, List.cons_append, List.cons_append,
      stringFrom?_escape (unicodeEscape?_pair hsmall rest), Nat.add_sub_cancel' (by omega),
      Char.ofNat_toNat]

/-- No character is written as nothing, so a text is no longer than what is written for it. -/
theorem length_escapeChar_pos (ascii : Bool) (c : Char) : 0 < (escapeChar ascii c).length := by
  have hunit (n : Nat) : escapeUnit n ≠ [] := List.cons_ne_nil _ _
  rw [List.length_pos_iff, escapeChar]
  simp only [ne_eq, ite_eq_iff, List.append_eq_nil_iff, hunit, List.cons_ne_nil, and_false, or_self,
    not_false_eq_true]

/-- **A text is read as it was written,** up to its closing quote. -/
theorem stringFrom?_flatMap (ascii : Bool) (cs tail : List Char) {fuel : Nat} (read : List Char)
    (hfuel : (cs.flatMap (escapeChar ascii)).length < fuel) :
    stringFrom? fuel read (cs.flatMap (escapeChar ascii) ++ '\x22' :: tail) =
      some (String.ofList (read.reverse ++ cs), tail) := by
  induction cs generalizing read fuel with
  | nil =>
    obtain ⟨fuel, rfl⟩ := Nat.exists_eq_add_one_of_ne_zero (Nat.ne_zero_of_lt hfuel)
    rw [List.flatMap_nil, List.nil_append, stringFrom?.eq_def]
    dsimp only
    rw [if_pos rfl, List.append_nil]
  | cons c cs ih =>
    obtain ⟨fuel, rfl⟩ := Nat.exists_eq_add_one_of_ne_zero (Nat.ne_zero_of_lt hfuel)
    rw [List.flatMap_cons, List.length_append] at hfuel
    have hescape := length_escapeChar_pos ascii c
    rw [List.flatMap_cons, List.append_assoc, stringFrom?_escapeChar, ih (c :: read) (by omega),
      List.reverse_cons, List.append_assoc, List.singleton_append]

theorem toList_quote (ascii : Bool) (s : String) :
    (quote ascii s).toList = '\x22' :: (s.toList.flatMap (escapeChar ascii) ++ ['\x22']) := by
  simp only [quote, String.toList_append, String.toList_ofList]
  rfl

/-- **A quoted text is read as it was written.** -/
theorem stringFrom?_quote (ascii : Bool) (s : String) (rest : List Char) :
    ∃ inner, (quote ascii s).toList ++ rest = '\x22' :: inner ∧
      stringFrom? (inner.length + 1) [] inner = some (s, rest) := by
  refine ⟨s.toList.flatMap (escapeChar ascii) ++ '\x22' :: rest, ?_, ?_⟩
  · rw [toList_quote, List.cons_append, List.append_assoc, List.singleton_append]
  · rw [stringFrom?_flatMap ascii s.toList rest [] (by rw [List.length_append]; omega),
      List.reverse_nil, List.nil_append, String.ofList_toList]

/-! ## Values -/

/-- **A value without a number that has a point or an exponent.** -/
inductive Whole : Json → Prop
  | null : Whole null
  | bool (value : Bool) : Whole (bool value)
  | int (value : Int) : Whole (int value)
  | string (value : String) : Whole (string value)
  | array {items : List Json} (h : ∀ item ∈ items, Whole item) : Whole (array items)
  | object {fields : List (String × Json)} (h : ∀ field ∈ fields, Whole field.2) :
    Whole (object fields)

/-- Nothing is skipped in front of what is no blank. -/
theorem skipBlanks_cons {c : Char} (h : c ∉ [' ', '\n', '\t', '\r']) (cs : List Char) :
    skipBlanks (c :: cs) = c :: cs := by
  apply List.dropWhile_cons_of_neg
  simpa [not_or, and_assoc] using h

/-- A value's text begins, and not with what could be taken for something else. -/
theorem Whole.exists_cons_text {j : Json} (h : j.Whole) (ascii : Bool) :
    ∃ c cs, (text ascii j).toList = c :: cs ∧ c ∉ [' ', '\n', '\t', '\r'] ∧ c ≠ ']' := by
  cases h with
  | null => exact ⟨'n', "ull".toList, by rw [text]; rfl, by decide, by decide⟩
  | bool value =>
    cases value with
    | true => exact ⟨'t', "rue".toList, by rw [text]; rfl, by decide, by decide⟩
    | false => exact ⟨'f', "alse".toList, by rw [text]; rfl, by decide, by decide⟩
  | int value =>
    obtain ⟨c, cs, hcs, hc⟩ := exists_cons_toString value
    refine ⟨c, cs, by rw [text, hcs], ?_, ?_⟩
    · rcases hc with rfl | hc
      · decide
      · simp only [List.mem_cons, List.not_mem_nil, or_false]
        rintro (rfl | rfl | rfl | rfl) <;> cases hc
    · rintro rfl
      rcases hc with hc | hc <;> cases hc
  | string value => exact ⟨'\x22', _, by rw [text, toList_quote], by decide, by decide⟩
  | array h =>
    exact ⟨'[', _, by rw [text, String.toList_append, String.toList_append]; rfl, by decide,
      by decide⟩
  | object h =>
    exact ⟨'\x7b', _, by rw [text, String.toList_append, String.toList_append]; rfl, by decide,
      by decide⟩

/-- **What is to be shown of a value:** wherever it stands, the reader finds it and what comes
after it, given one level for each character. -/
def Found (ascii : Bool) (j : Json) : Prop :=
  ∀ fuel rest, (text ascii j).toList.length ≤ fuel → Stops rest →
    valueFrom? fuel ((text ascii j).toList ++ rest) = some (j, rest)

/-- What starts with a digit or a minus sign is read as a number. -/
theorem valueFrom?_number {c : Char} (hc : c = '-' ∨ c.isDigit = true) (fuel : Nat)
    (cs : List Char) : valueFrom? (fuel + 1) (c :: cs) = number? (c :: cs) := by
  have hblank : c ∉ [' ', '\n', '\t', '\r'] := by
    rcases hc with rfl | hc
    · decide
    · simp only [List.mem_cons, List.not_mem_nil, or_false]
      rintro (rfl | rfl | rfl | rfl) <;> cases hc
  rw [valueFrom?, skipBlanks_cons hblank]
  -- no other kind of value starts with a digit or a minus sign
  split <;> rename_i h <;> cases h
  case h_8 => rfl
  all_goals rcases hc with hc | hc <;> cases hc

variable {ascii : Bool} {items : List Json} {fields : List (String × Json)}

theorem toList_itemsText_cons (item second : Json) (others : List Json) :
    (itemsText ascii (item :: second :: others)).toList =
      (text ascii item).toList ++ ',' :: (itemsText ascii (second :: others)).toList := by
  rw [itemsText, String.toList_append, String.toList_append, List.append_assoc]
  · rfl
  · simp

/-- The items of an array are found if each of them is. -/
theorem itemsFrom?_itemsText (hitems : items ≠ []) (h : ∀ item ∈ items, Found ascii item)
    (fuel : Nat) (rest : List Char) (hfuel : (itemsText ascii items).toList.length < fuel) :
    itemsFrom? fuel ((itemsText ascii items).toList ++ ']' :: rest) = some (items, rest) := by
  induction items generalizing fuel with
  | nil => exact absurd rfl hitems
  | cons item others ih =>
    obtain ⟨fuel, rfl⟩ := Nat.exists_eq_add_one_of_ne_zero (Nat.ne_zero_of_lt hfuel)
    rw [List.forall_mem_cons] at h
    cases others with
    | nil =>
      rw [itemsText] at hfuel ⊢
      rw [itemsFrom?, h.1 fuel (']' :: rest) (by omega) (stops_cons (by simp) rest)]
      dsimp only
      rw [skipBlanks_cons (by decide)]
      rfl
    | cons second others =>
      rw [toList_itemsText_cons, List.length_append, List.length_cons] at hfuel
      rw [toList_itemsText_cons, List.append_assoc, List.cons_append, itemsFrom?,
        h.1 fuel _ (by omega) (stops_cons (by simp) _)]
      dsimp only
      rw [skipBlanks_cons (by decide)]
      show (itemsFrom? fuel _).map _ = _
      rw [ih (by simp) h.2 fuel (by omega)]
      rfl

theorem toList_fieldsText_singleton (name : String) (value : Json) :
    (fieldsText ascii [(name, value)]).toList =
      (quote ascii name).toList ++ ':' :: (text ascii value).toList := by
  rw [fieldsText, String.toList_append, String.toList_append, List.append_assoc]
  rfl

theorem toList_fieldsText_cons (name : String) (value : Json) (second : String × Json)
    (others : List (String × Json)) :
    (fieldsText ascii ((name, value) :: second :: others)).toList =
      (quote ascii name).toList ++
        ':' :: ((text ascii value).toList ++ ',' :: (fieldsText ascii (second :: others)).toList) := by
  rw [fieldsText, String.toList_append, String.toList_append, String.toList_append,
    String.toList_append, List.append_assoc, List.append_assoc, List.append_assoc]
  · rfl
  · simp

/-- A field is read as it was written, and the reader goes on after a comma. -/
theorem fieldsFrom?_quote {name : String} {value : Json} (h : Found ascii value) {fuel : Nat}
    (hfuel : (text ascii value).toList.length ≤ fuel) (rest : List Char) :
    fieldsFrom? (fuel + 1) ((quote ascii name).toList ++
        ':' :: ((text ascii value).toList ++ '\x7d' :: rest)) = some ([(name, value)], rest) ∧
      fieldsFrom? (fuel + 1) ((quote ascii name).toList ++
        ':' :: ((text ascii value).toList ++ ',' :: rest)) =
          (fieldsFrom? fuel rest).map fun read => ((name, value) :: read.1, read.2) := by
  have hcolon : ':' ∉ [' ', '\n', '\t', '\r'] := by decide
  constructor
  · have hvalue := h fuel ('\x7d' :: rest) hfuel (stops_cons (by simp) rest)
    obtain ⟨inner, hquote, hname⟩ := stringFrom?_quote ascii name
      (':' :: ((text ascii value).toList ++ '\x7d' :: rest))
    rw [hquote, fieldsFrom?, skipBlanks_cons (by decide)]
    simp only [hname, skipBlanks_cons hcolon, hvalue, skipBlanks_cons (c := '\x7d') (by decide)]
  · have hvalue := h fuel (',' :: rest) hfuel (stops_cons (by simp) rest)
    obtain ⟨inner, hquote, hname⟩ := stringFrom?_quote ascii name
      (':' :: ((text ascii value).toList ++ ',' :: rest))
    rw [hquote, fieldsFrom?, skipBlanks_cons (by decide)]
    simp only [hname, skipBlanks_cons hcolon, hvalue, skipBlanks_cons (c := ',') (by decide)]

/-- The fields of an object are found if each of their values is. -/
theorem fieldsFrom?_fieldsText (hfields : fields ≠ []) (h : ∀ field ∈ fields, Found ascii field.2)
    (fuel : Nat) (rest : List Char) (hfuel : (fieldsText ascii fields).toList.length < fuel) :
    fieldsFrom? fuel ((fieldsText ascii fields).toList ++ '\x7d' :: rest) = some (fields, rest) := by
  -- each field is read at one level less than the one before it, and is shorter than the text
  induction fields generalizing fuel with
  | nil => exact absurd rfl hfields
  | cons field others ih =>
    obtain ⟨name, value⟩ := field
    obtain ⟨fuel, rfl⟩ := Nat.exists_eq_add_one_of_ne_zero (Nat.ne_zero_of_lt hfuel)
    rw [List.forall_mem_cons] at h
    have hvalue : Found ascii value := h.1
    cases others with
    | nil =>
      rw [toList_fieldsText_singleton, List.length_append, List.length_cons] at hfuel
      rw [toList_fieldsText_singleton, List.append_assoc, List.cons_append,
        (fieldsFrom?_quote hvalue (by omega) rest).1]
    | cons second others =>
      rw [toList_fieldsText_cons, List.length_append, List.length_cons, List.length_append,
        List.length_cons] at hfuel
      rw [toList_fieldsText_cons, List.append_assoc, List.cons_append, List.append_assoc,
        List.cons_append, (fieldsFrom?_quote hvalue (by omega) _).2,
        ih (by simp) h.2 fuel (by omega)]
      rfl

/-- A text with something in it leaves the reader a level. -/
theorem exists_fuel {n fuel : Nat} (h : n + 1 ≤ fuel) : ∃ less, fuel = less + 1 ∧ n ≤ less :=
  ⟨fuel - 1, by omega, by omega⟩

theorem toList_text_array (ascii : Bool) (items : List Json) (rest : List Char) :
    (text ascii (array items)).toList ++ rest =
      '[' :: ((itemsText ascii items).toList ++ ']' :: rest) := by
  rw [text, String.toList_append, String.toList_append, List.append_assoc, List.append_assoc]
  rfl

theorem toList_text_object (ascii : Bool) (fields : List (String × Json)) (rest : List Char) :
    (text ascii (object fields)).toList ++ rest =
      '\x7b' :: ((fieldsText ascii fields).toList ++ '\x7d' :: rest) := by
  rw [text, String.toList_append, String.toList_append, List.append_assoc, List.append_assoc]
  rfl

/-- Behind a bracket that is not closed at once, items are read. -/
theorem valueFrom?_array (fuel : Nat) {c : Char} (hblank : c ∉ [' ', '\n', '\t', '\r'])
    (hclose : c ≠ ']') (cs : List Char) :
    valueFrom? (fuel + 1) ('[' :: c :: cs) =
      (itemsFrom? fuel (c :: cs)).map fun (items, rest) => (array items, rest) := by
  rw [valueFrom?, skipBlanks_cons (by decide)]
  simp only [skipBlanks_cons hblank]
  split
  · rename_i heq
    cases heq
    exact absurd rfl hclose
  · rfl

/-- Behind a brace and a quote, fields are read. -/
theorem valueFrom?_object (fuel : Nat) (cs : List Char) :
    valueFrom? (fuel + 1) ('\x7b' :: '\x22' :: cs) =
      (fieldsFrom? fuel ('\x22' :: cs)).map fun (fields, rest) => (object fields, rest) := rfl

/-- What stands between the brackets of an array begins like its first item. -/
theorem exists_cons_itemsText (ascii : Bool) {item : Json} (h : item.Whole) (others : List Json) :
    ∃ c cs, (itemsText ascii (item :: others)).toList = c :: cs ∧
      c ∉ [' ', '\n', '\t', '\r'] ∧ c ≠ ']' := by
  obtain ⟨c, cs, hcs, hc⟩ := h.exists_cons_text ascii
  cases others with
  | nil => exact ⟨c, cs, by rw [itemsText, hcs], hc⟩
  | cons second others =>
    refine ⟨c, cs ++ ',' :: (itemsText ascii (second :: others)).toList, ?_, hc⟩
    rw [toList_itemsText_cons, hcs, List.cons_append]

/-- What stands between the brackets of an object begins with a quote. -/
theorem exists_cons_fieldsText (ascii : Bool) (field : String × Json)
    (others : List (String × Json)) :
    ∃ cs, (fieldsText ascii (field :: others)).toList = '\x22' :: cs := by
  obtain ⟨name, value⟩ := field
  cases others with
  | nil => exact ⟨_, by rw [toList_fieldsText_singleton, toList_quote, List.cons_append]⟩
  | cons second others => exact ⟨_, by rw [toList_fieldsText_cons, toList_quote, List.cons_append]⟩

/-! ## Every value is found -/

theorem found_null (ascii : Bool) : Found ascii null := by
  intro fuel rest hfuel _
  rw [text] at hfuel ⊢
  obtain ⟨fuel, rfl, -⟩ := exists_fuel (show 3 + 1 ≤ fuel from hfuel)
  rfl

theorem found_bool (ascii value : Bool) : Found ascii (bool value) := by
  intro fuel rest hfuel _
  cases value with
  | true =>
    rw [text] at hfuel ⊢
    obtain ⟨fuel, rfl, -⟩ := exists_fuel (show 3 + 1 ≤ fuel from hfuel)
    rfl
  | false =>
    rw [text] at hfuel ⊢
    obtain ⟨fuel, rfl, -⟩ := exists_fuel (show 4 + 1 ≤ fuel from hfuel)
    rfl

/-- A number is found up to where it stops, which its digits alone would not tell. -/
theorem found_int (ascii : Bool) (value : Int) : Found ascii (int value) := by
  intro fuel rest hfuel hrest
  obtain ⟨c, cs, hcs, hc⟩ := exists_cons_toString value
  rw [text] at hfuel ⊢
  rw [hcs, List.length_cons] at hfuel
  obtain ⟨fuel, rfl, -⟩ := exists_fuel hfuel
  rw [hcs, List.cons_append, valueFrom?_number hc, ← List.cons_append, ← hcs,
    number?_int value hrest]

/-- A text is found up to its closing quote. -/
theorem found_string (ascii : Bool) (value : String) : Found ascii (string value) := by
  intro fuel rest hfuel _
  rw [text, toList_quote, List.length_cons] at hfuel
  obtain ⟨fuel, rfl, -⟩ := exists_fuel hfuel
  obtain ⟨inner, hquote, hread⟩ := stringFrom?_quote ascii value rest
  rw [text, hquote, valueFrom?, skipBlanks_cons (by decide)]
  simp only [hread, Option.map_some]

/-- An array is found if its items are. -/
theorem found_array (hwhole : ∀ item ∈ items, item.Whole) (h : ∀ item ∈ items, Found ascii item) :
    Found ascii (array items) := by
  intro fuel rest hfuel _
  have htext := toList_text_array ascii items
  have hlength := congrArg List.length (htext [])
  simp only [List.append_nil, List.length_cons, List.length_append, List.length_nil] at hlength
  rw [hlength] at hfuel
  -- the bracket takes a level, and what is within has one for each of its characters
  obtain ⟨fuel, rfl, hfuel⟩ := exists_fuel hfuel
  rw [htext]
  cases items with
  | nil =>
    rw [itemsText]
    rfl
  | cons item others =>
    obtain ⟨c, cs, hcs, hblank, hclose⟩ :=
      exists_cons_itemsText ascii (hwhole item List.mem_cons_self) others
    have hread := itemsFrom?_itemsText (by simp) h fuel rest (by omega)
    rw [hcs, List.cons_append] at hread ⊢
    rw [valueFrom?_array fuel hblank hclose, hread, Option.map_some]

/-- An object is found if the values of its fields are. -/
theorem found_object (h : ∀ field ∈ fields, Found ascii field.2) : Found ascii (object fields) := by
  intro fuel rest hfuel _
  have htext := toList_text_object ascii fields
  have hlength := congrArg List.length (htext [])
  simp only [List.append_nil, List.length_cons, List.length_append, List.length_nil] at hlength
  rw [hlength] at hfuel
  obtain ⟨fuel, rfl, hfuel⟩ := exists_fuel hfuel
  rw [htext]
  cases fields with
  | nil =>
    rw [fieldsText]
    rfl
  | cons field others =>
    obtain ⟨cs, hcs⟩ := exists_cons_fieldsText ascii field others
    have hread := fieldsFrom?_fieldsText (by simp) h fuel rest (by omega)
    rw [hcs, List.cons_append] at hread ⊢
    rw [valueFrom?_object, hread, Option.map_some]

/-- **Every such value is found in its text.** -/
theorem Whole.found {j : Json} (h : j.Whole) (ascii : Bool) : Found ascii j := by
  induction h with
  | null => exact found_null ascii
  | bool value => exact found_bool ascii value
  | int value => exact found_int ascii value
  | string value => exact found_string ascii value
  | array h ih => exact found_array h ih
  | object _ ih => exact found_object ih

/-- **A value is read as it was written.** -/
theorem parse?_text {j : Json} (h : j.Whole) (ascii : Bool) : parse? (j.text ascii) = some j := by
  have hfound := h.found ascii ((text ascii j).toList.length + 1) [] (by omega) stops_nil
  rw [List.append_nil] at hfound
  unfold parse?
  dsimp only
  rw [hfound]
  rfl

end Json

end Admission
