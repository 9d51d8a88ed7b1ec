import Mathlib.Data.Int.Notation
import Mathlib.Data.List.TakeWhile
import SqlPlan.Json.Read
import SqlPlan.Json.Write

/-!
# The text of a tree is read back

A tree is *plain* if every number in it is an integer and every string in it has a text.  Reading
the text of a plain tree gives the tree back (`Json.read?_text`), whatever its depth, its characters
and its numbers.

Both halves of the reader are automata, and the proof follows the two along the text of one
value.  The lexer starts between tokens and ends between tokens, having found some more; the parser,
run over all that was found, was waiting for a value and now has it (`Json.Reads`).  What comes
after the value is arbitrary, but for one thing: a word only ends where something else than a
further letter of it stands.
-/

namespace SqlPlan.Json

/-- A tree in which every number is an integer and every string has a text. -/
inductive Plain : Json → Prop where
  | null : Plain null
  | bool (value : Bool) : Plain (bool value)
  | int (value : ℤ) : Plain (int value)
  | str (value : String) : Plain (str value)
  | arr {items : List Json} : (∀ j ∈ items, Plain j) → Plain (arr items)
  | obj {fields : List (String × Json)} : (∀ f ∈ fields, Plain f.2) → Plain (obj fields)

/-! ### The integers -/

/-- The digits of a number other than zero do not start with zero. -/
theorem exists_toDigits_cons {n : ℕ} (h : n ≠ 0) :
    ∃ c cs, Nat.toDigits 10 n = c :: cs ∧ c ≠ '0' := by
  induction n using Nat.strongRecOn with
  | ind n ih =>
    by_cases small : n < 10
    · have nonzero : ∀ d < 10, d ≠ 0 → d.digitChar ≠ '0' := by decide
      exact ⟨n.digitChar, [], Nat.toDigits_of_lt_base small, nonzero n small h⟩
    · obtain ⟨c, cs, digits, nonzero⟩ := ih (n / 10) (by omega) (by omega)
      refine ⟨c, cs ++ [(n % 10).digitChar], ?_, nonzero⟩
      rw [Nat.toDigits_of_base_le (by decide) (by omega), digits, List.cons_append]

theorem isIntegerPart_toDigits (n : ℕ) : isIntegerPart (Nat.toDigits 10 n) = true := by
  by_cases h : n = 0
  · rw [h, Nat.toDigits_zero]
    rfl
  · obtain ⟨c, cs, digits, nonzero⟩ := exists_toDigits_cons h
    rw [digits, isIntegerPart]
    · simpa using nonzero
    · rintro rfl
      exact absurd rfl nonzero

theorem isDigit_of_mem_toDigits {n : ℕ} {c : Char} (h : c ∈ Nat.toDigits 10 n) :
    c.isDigit = true :=
  Nat.isDigit_of_mem_toDigits (by decide) (by decide) h

theorem number?_toDigits (negative : Bool) {n : ℕ} (h : negative = true → n ≠ 0) :
    number? negative (Nat.toDigits 10 n) = some (.int (if negative then -n else n)) := by
  have taken : (Nat.toDigits 10 n).takeWhile Char.isDigit = Nat.toDigits 10 n :=
    List.takeWhile_eq_self_iff.mpr fun _ => isDigit_of_mem_toDigits
  have dropped : (Nat.toDigits 10 n).dropWhile Char.isDigit = [] :=
    List.dropWhile_eq_nil_iff.mpr fun _ => isDigit_of_mem_toDigits
  have nonzero : (negative && decide (n = 0)) = false := by
    cases negative <;> simp_all
  simp only [number?, taken, dropped, isIntegerPart_toDigits, Nat.ofDigitChars_ten_toDigits,
    nonzero]
  rfl

/-- The characters of an integer: a sign if it is negative, and digits. -/
theorem toList_repr (n : ℤ) :
    n.repr.toList =
      if 0 ≤ n then Nat.toDigits 10 n.toNat else '-' :: Nat.toDigits 10 (-n).toNat := by
  rw [Int.repr_eq_if]
  split <;> simp [Nat.repr_eq_ofList_toDigits]

/-- A word that starts like a number is none of the three literals. -/
theorem word?_cons {c : Char} {cs : List Char} (h : c.isDigit = true ∨ c = '-') :
    word? (c :: cs) = if c = '-' then number? true cs else number? false (c :: cs) := by
  have differs : c ≠ 'n' ∧ c ≠ 't' ∧ c ≠ 'f' := by
    rcases h with h | rfl
    · refine ⟨?_, ?_, ?_⟩ <;> (rintro rfl; revert h; decide)
    · decide
  obtain ⟨hn, ht, hf⟩ := differs
  unfold word?
  rw [if_neg (by simp [hn]), if_neg (by simp [ht]), if_neg (by simp [hf])]
  by_cases hc : c = '-'
  · rw [if_pos hc, hc]
    rfl
  · rw [if_neg hc]
    split
    · simp_all
    · rfl

theorem word?_repr (n : ℤ) : word? n.repr.toList = some (.int n) := by
  rw [toList_repr]
  by_cases h : 0 ≤ n
  · have value := number?_toDigits false (n := n.toNat) nofun
    obtain ⟨c, cs, digits⟩ :=
      List.exists_cons_of_ne_nil (Nat.toDigits_ne_nil (n := n.toNat) (b := 10))
    have digit : c.isDigit = true := isDigit_of_mem_toDigits (n := n.toNat) (by simp [digits])
    have no_sign : c ≠ '-' := by
      rintro rfl
      revert digit
      decide
    rw [if_pos h, digits, word?_cons (.inl digit), if_neg no_sign, ← digits, value]
    simp [Int.toNat_of_nonneg h]
  · have value := number?_toDigits true (n := (-n).toNat) (by omega)
    rw [if_neg h, word?_cons (.inr rfl), if_pos rfl, value]
    simp only [if_true, Option.some.injEq, int.injEq]
    omega

/-! ### The lexer -/

namespace Lexer

/-- All tokens, once the rest of the text is read. -/
def run (l : Lexer) (cs : List Char) : Option (List Token) := do
  (← cs.foldlM step l).finish

theorem run_cons {l m : Lexer} {c : Char} (h : l.step c = some m) (cs : List Char) :
    l.run (c :: cs) = m.run cs := by
  simp only [run, List.foldlM_cons, h]
  rfl

/-! #### Marks and words -/

theorem run_mark {c : Char} {t : Token} (h : mark? c = some t) (found : List Token)
    (rest : List Char) :
    run ⟨.between, found⟩ (c :: rest) = run ⟨.between, t :: found⟩ rest := by
  have differs : isBlank c = false ∧ c ≠ '"' := by
    unfold mark? at h
    split at h
    case h_7 => cases h
    all_goals decide
  apply run_cons
  simp only [step, start, differs, h]
  rfl

theorem isWordChar_iff {c : Char} :
    isWordChar c = true ↔ isBlank c = false ∧ c ≠ '"' ∧ mark? c = none := by
  simp [isWordChar, and_assoc]

theorem isWordChar_of_isDigit {c : Char} (h : c.isDigit = true) : isWordChar c = true := by
  have differs : ∀ d : Char, d.isDigit = false → c ≠ d := by
    rintro d hd rfl
    rw [h] at hd
    cases hd
  refine isWordChar_iff.mpr ⟨?_, differs '"' rfl, ?_⟩
  · simp [isBlank, differs ' ' rfl, differs '\t' rfl, differs '\n' rfl, differs '\r' rfl]
  · unfold mark?
    split
    case h_7 => rfl
    all_goals exact absurd h (by decide)

/-- A text with which no word can go on. -/
def Delimited (rest : List Char) : Prop := ∀ c ∈ rest.head?, isWordChar c = false

theorem run_word_append {cs : List Char} (h : ∀ c ∈ cs, isWordChar c = true) (read : List Char)
    (found : List Token) (rest : List Char) :
    run ⟨.word read, found⟩ (cs ++ rest) = run ⟨.word (cs.reverse ++ read), found⟩ rest := by
  induction cs generalizing read with
  | nil => rfl
  | cons c cs ih =>
    have hc : isWordChar c = true := h c List.mem_cons_self
    rw [List.cons_append, run_cons (m := ⟨.word (c :: read), found⟩) (by simp [step, hc]),
      ih fun d hd => h d (List.mem_cons_of_mem _ hd)]
    simp

theorem run_word_end {read : List Char} {j : Json} (h : word? read.reverse = some j)
    (found : List Token) {rest : List Char} (hrest : Delimited rest) :
    run ⟨.word read, found⟩ rest = run ⟨.between, .word j :: found⟩ rest := by
  cases rest with
  | nil => simp [run, finish, endWord, h, emit]
  | cons c rest =>
    have ends : isWordChar c = false := hrest c rfl
    have same : step ⟨.word read, found⟩ c = step ⟨.between, .word j :: found⟩ c := by
      simp [step, ends, endWord, h, emit]
    simp only [run, List.foldlM_cons, same]

theorem run_word {cs : List Char} {j : Json} (hcs : ∀ c ∈ cs, isWordChar c = true)
    (h : word? cs = some j) (found : List Token) {rest : List Char} (hrest : Delimited rest) :
    run ⟨.between, found⟩ (cs ++ rest) = run ⟨.between, .word j :: found⟩ rest := by
  cases cs with
  | nil => cases h
  | cons c cs =>
    have begins : step ⟨.between, found⟩ c = some ⟨.word [c], found⟩ := by
      obtain ⟨no_blank, no_quote, no_mark⟩ := isWordChar_iff.mp (hcs c List.mem_cons_self)
      simp [step, start, no_blank, no_quote, no_mark]
    rw [List.cons_append, run_cons begins,
      run_word_append fun d hd => hcs d (List.mem_cons_of_mem _ hd)]
    exact run_word_end (by simpa using h) found hrest

theorem run_repr (n : ℤ) (found : List Token) {rest : List Char} (hrest : Delimited rest) :
    run ⟨.between, found⟩ (n.repr.toList ++ rest) =
      run ⟨.between, .word (.int n) :: found⟩ rest := by
  have letters : ∀ d ∈ n.repr.toList, isWordChar d = true := by
    intro d hd
    rw [toList_repr] at hd
    split at hd
    · exact isWordChar_of_isDigit (isDigit_of_mem_toDigits hd)
    · rcases List.mem_cons.mp hd with rfl | hd
      · rfl
      · exact isWordChar_of_isDigit (isDigit_of_mem_toDigits hd)
  exact run_word letters (word?_repr n) found hrest

/-! #### Strings -/

theorem hexValue?_hexDigit : ∀ n < 16, hexValue? (hexDigit n) = some n := by
  decide

/-- An escaped code below U+0020 is no half of a surrogate pair, nor does it complete one. -/
theorem addUnit_control {c : Char} (h : c.toNat < 0x20) (cs : List Char) :
    Piece.addUnit c.toNat (cs.map .char) = (c :: cs).map .char := by
  have unit : Piece.ofUnit c.toNat = .char c := by
    have high : isHighSurrogate c.toNat = false := by simp [isHighSurrogate]; omega
    have low : isLowSurrogate c.toNat = false := by simp [isLowSurrogate]; omega
    simp [Piece.ofUnit, high, low]
  cases cs with
  | nil => simp [Piece.addUnit, unit]
  | cons d cs => simp [Piece.addUnit, unit]

theorem run_letter {c d : Char} (h : escaped? d = some c) (read : List Char) (found : List Token)
    (rest : List Char) :
    run ⟨.string (read.map .char) .closed, found⟩ ('\\' :: d :: rest) =
      run ⟨.string ((c :: read).map .char) .closed, found⟩ rest := by
  have no_code : d ≠ 'u' := by
    rintro rfl
    cases h
  rw [run_cons (m := ⟨.string (read.map .char) .backslash, found⟩) rfl]
  apply run_cons
  simp [step, stepString, no_code, h]

theorem run_code {c : Char} (h : c.toNat < 0x20) (read : List Char) (found : List Token)
    (rest : List Char) :
    run ⟨.string (read.map .char) .closed, found⟩
        ('\\' :: 'u' :: '0' :: '0' :: hexDigit (c.toNat / 16) :: hexDigit (c.toNat % 16) :: rest) =
      run ⟨.string ((c :: read).map .char) .closed, found⟩ rest := by
  have high : hexValue? (hexDigit (c.toNat / 16)) = some (c.toNat / 16) :=
    hexValue?_hexDigit _ (by omega)
  have low : hexValue? (hexDigit (c.toNat % 16)) = some (c.toNat % 16) :=
    hexValue?_hexDigit _ (by omega)
  have value : c.toNat / 16 * 16 + c.toNat % 16 = c.toNat := by omega
  rw [run_cons (m := ⟨.string (read.map .char) .backslash, found⟩) rfl,
    run_cons (m := ⟨.string (read.map .char) (.digits 4 0), found⟩) rfl,
    run_cons (m := ⟨.string (read.map .char) (.digits 3 0), found⟩) rfl,
    run_cons (m := ⟨.string (read.map .char) (.digits 2 0), found⟩) rfl,
    run_cons (m := ⟨.string (read.map .char) (.digits 1 (c.toNat / 16)), found⟩)
      (by simp [step, stepString, high])]
  apply run_cons
  simp [step, stepString, low, value, addUnit_control h]

theorem run_escapeChar (c : Char) (read : List Char) (found : List Token) (rest : List Char) :
    run ⟨.string (read.map .char) .closed, found⟩ (escapeChar c ++ rest) =
      run ⟨.string ((c :: read).map .char) .closed, found⟩ rest := by
  unfold escapeChar
  split_ifs with quote backslash b f n r t control
  · subst quote; exact run_letter rfl read found rest
  · subst backslash; exact run_letter rfl read found rest
  · subst b; exact run_letter rfl read found rest
  · subst f; exact run_letter rfl read found rest
  · subst n; exact run_letter rfl read found rest
  · subst r; exact run_letter rfl read found rest
  · subst t; exact run_letter rfl read found rest
  · exact run_code control read found rest
  · apply run_cons
    simp [step, stepString, quote, backslash, control]

theorem run_escaped (cs read : List Char) (found : List Token) (rest : List Char) :
    run ⟨.string (read.map .char) .closed, found⟩ (cs.flatMap escapeChar ++ rest) =
      run ⟨.string ((cs.reverse ++ read).map .char) .closed, found⟩ rest := by
  induction cs generalizing read with
  | nil => rfl
  | cons c cs ih =>
    rw [List.flatMap_cons, List.append_assoc, run_escapeChar, ih, List.reverse_cons,
      List.append_assoc, List.singleton_append]

theorem text?_map_char (cs : List Char) :
    Piece.text? (cs.map .char) = some (.ofList cs.reverse) := by
  have chars : (cs.map Piece.char).mapM Piece.char? = some cs := by
    induction cs with
    | nil => rfl
    | cons c cs ih => rw [List.map_cons, List.mapM_cons, ih]; rfl
  rw [Piece.text?, chars]
  rfl

theorem run_quote (s : String) (found : List Token) (rest : List Char) :
    run ⟨.between, found⟩ (quote s rest) = run ⟨.between, .str (some s) :: found⟩ rest := by
  have opens : step ⟨.between, found⟩ '"' = some ⟨.string ([].map .char) .closed, found⟩ := rfl
  have text : Piece.text? (s.toList.reverse.map .char) = some s := by
    rw [text?_map_char, List.reverse_reverse, String.ofList_toList]
  rw [quote, run_cons opens, run_escaped, List.append_nil]
  apply run_cons
  simp only [step, stepString, emit, text]
  rfl

end Lexer

/-! ### The parser -/

/-- What the parser has made of the tokens found so far, latest first. -/
def parsed (found : List Token) : Option Parser := found.reverse.foldlM Parser.step (.value [])

theorem parsed_cons {found : List Token} {p p' : Parser} {t : Token} (h : parsed found = some p)
    (ht : p.step t = some p') : parsed (t :: found) = some p' := by
  unfold parsed at h ⊢
  rw [List.reverse_cons, List.foldlM_append, h]
  simp [ht]

/-- The parser waits for a value, above the given stack.  It may be the first item of an array,
which could also end here. -/
def Parser.Awaits (p : Parser) (stack : List Frame) : Prop :=
  p = .value stack ∨ ∃ below, p = .firstItem below ∧ stack = .arr [] :: below

theorem Parser.Awaits.step_eq {p : Parser} {stack : List Frame} (h : p.Awaits stack) {t : Token}
    (ht : t ≠ .closeArr) : p.step t = beginValue stack t := by
  rcases h with rfl | ⟨below, rfl, rfl⟩
  · rfl
  · cases t with
    | closeArr => exact absurd rfl ht
    | _ => rfl

/-- Reading the text of a value: the lexer finds its tokens, and the parser has the value. -/
def Reads (j : Json) : Prop :=
  ∀ {found : List Token} {p : Parser} {stack : List Frame} {rest : List Char},
    parsed found = some p → p.Awaits stack → Lexer.Delimited rest →
      ∃ found', Lexer.run ⟨.between, found⟩ (j.write rest) = Lexer.run ⟨.between, found'⟩ rest ∧
        parsed found' = some (.after j stack)

/-- A value of one token. -/
theorem reads_of_token {j : Json} (t : Token)
    (lexed : ∀ (found : List Token) {rest : List Char}, Lexer.Delimited rest →
      Lexer.run ⟨.between, found⟩ (j.write rest) = Lexer.run ⟨.between, t :: found⟩ rest)
    (ht : ∀ stack, Parser.beginValue stack t = some (.after j stack)) : Reads j := by
  intro found p stack rest hp waits hrest
  have opens : t ≠ .closeArr := by
    rintro rfl
    cases ht []
  refine ⟨t :: found, lexed found hrest, parsed_cons hp ?_⟩
  rw [waits.step_eq opens, ht]

theorem delimited_writeItems (items : List Json) (rest : List Char) :
    Lexer.Delimited (writeItems items rest) := by
  cases items <;> simp [writeItems, Lexer.Delimited] <;> decide

theorem delimited_writeFields (fields : List (String × Json)) (rest : List Char) :
    Lexer.Delimited (writeFields fields rest) := by
  rcases fields with _ | ⟨⟨key, j⟩, fields⟩ <;> simp [writeFields, Lexer.Delimited] <;> decide

/-- The items that follow a first one, up to the end of the array. -/
theorem run_writeItems {items : List Json} (h : ∀ j ∈ items, Reads j) {found : List Token}
    {first : Json} {read : List Json} {stack : List Frame}
    (hp : parsed found = some (.after first (.arr read :: stack))) (rest : List Char) :
    ∃ found', Lexer.run ⟨.between, found⟩ (writeItems items rest) =
        Lexer.run ⟨.between, found'⟩ rest ∧
      parsed found' = some (.after (.arr ((first :: read).reverse ++ items)) stack) := by
  induction items generalizing found first read with
  | nil =>
    rw [writeItems, Lexer.run_mark (t := .closeArr) rfl, List.append_nil]
    exact ⟨_, rfl, parsed_cons hp rfl⟩
  | cons j items ih =>
    have comma : parsed (.comma :: found) = some (.value (.arr (first :: read) :: stack)) :=
      parsed_cons hp rfl
    obtain ⟨found₁, run₁, hp₁⟩ :=
      h j List.mem_cons_self comma (.inl rfl) (delimited_writeItems items rest)
    obtain ⟨found₂, run₂, hp₂⟩ := ih (fun k hk => h k (List.mem_cons_of_mem _ hk)) hp₁
    refine ⟨found₂, ?_, by simpa using hp₂⟩
    rw [writeItems, Lexer.run_mark (t := .comma) rfl, run₁, run₂]

/-- The fields that follow a first one, up to the end of the object. -/
theorem run_writeFields {fields : List (String × Json)} (h : ∀ f ∈ fields, Reads f.2)
    {found : List Token} {key : String} {first : Json} {read : List (String × Json)}
    {stack : List Frame}
    (hp : parsed found = some (.after first (.obj (some read) (some key) :: stack)))
    (rest : List Char) :
    ∃ found', Lexer.run ⟨.between, found⟩ (writeFields fields rest) =
        Lexer.run ⟨.between, found'⟩ rest ∧
      parsed found' = some (.after (.obj (((key, first) :: read).reverse ++ fields)) stack) := by
  induction fields generalizing found key first read with
  | nil =>
    rw [writeFields, Lexer.run_mark (t := .closeObj) rfl, List.append_nil]
    exact ⟨_, rfl, parsed_cons hp rfl⟩
  | cons f fields ih =>
    obtain ⟨key', j⟩ := f
    have comma : parsed (.comma :: found) = some (.nextKey (some ((key, first) :: read)) stack) :=
      parsed_cons hp rfl
    have colon : parsed (.colon :: .str (some key') :: .comma :: found) =
        some (.value (.obj (some ((key, first) :: read)) (some key') :: stack)) :=
      parsed_cons (parsed_cons comma rfl) rfl
    obtain ⟨found₁, run₁, hp₁⟩ :=
      h (key', j) List.mem_cons_self colon (.inl rfl) (delimited_writeFields fields rest)
    obtain ⟨found₂, run₂, hp₂⟩ := ih (fun k hk => h k (List.mem_cons_of_mem _ hk)) hp₁
    refine ⟨found₂, ?_, by simpa using hp₂⟩
    rw [writeFields, Lexer.run_mark (t := .comma) rfl, Lexer.run_quote,
      Lexer.run_mark (t := .colon) rfl, run₁, run₂]

theorem Plain.reads {j : Json} (h : j.Plain) : Reads j := by
  induction h with
  | null =>
    refine reads_of_token (.word .null) (fun found rest hrest => ?_) fun _ => rfl
    show Lexer.run _ (['n', 'u', 'l', 'l'] ++ rest) = _
    exact Lexer.run_word (List.all_eq_true.mp rfl) rfl found hrest
  | bool value =>
    refine reads_of_token (.word (.bool value)) (fun found rest hrest => ?_) fun _ => rfl
    cases value with
    | true =>
      show Lexer.run _ (['t', 'r', 'u', 'e'] ++ rest) = _
      exact Lexer.run_word (List.all_eq_true.mp rfl) rfl found hrest
    | false =>
      show Lexer.run _ (['f', 'a', 'l', 's', 'e'] ++ rest) = _
      exact Lexer.run_word (List.all_eq_true.mp rfl) rfl found hrest
  | int value =>
    refine reads_of_token (.word (.int value)) (fun found rest hrest => ?_) fun _ => rfl
    show Lexer.run _ (value.repr.toList ++ rest) = _
    exact Lexer.run_repr value found hrest
  | str value =>
    refine reads_of_token (.str (some value)) (fun found rest hrest => ?_) fun _ => rfl
    show Lexer.run _ (quote value rest) = _
    exact Lexer.run_quote value found rest
  | @arr items _ ih =>
    intro found p stack rest hp waits hrest
    have opens : parsed (.openArr :: found) = some (.firstItem stack) :=
      parsed_cons hp (waits.step_eq nofun)
    cases items with
    | nil =>
      refine ⟨.closeArr :: .openArr :: found, ?_, parsed_cons opens rfl⟩
      show Lexer.run _ ('[' :: ']' :: rest) = _
      rw [Lexer.run_mark (t := .openArr) rfl, Lexer.run_mark (t := .closeArr) rfl]
    | cons j items =>
      obtain ⟨found₁, run₁, hp₁⟩ :=
        ih j List.mem_cons_self opens (.inr ⟨stack, rfl, rfl⟩) (delimited_writeItems items rest)
      obtain ⟨found₂, run₂, hp₂⟩ :=
        run_writeItems (fun k hk => ih k (List.mem_cons_of_mem _ hk)) hp₁ rest
      refine ⟨found₂, ?_, hp₂⟩
      show Lexer.run _ ('[' :: j.write (writeItems items rest)) = _
      rw [Lexer.run_mark (t := .openArr) rfl, run₁, run₂]
  | @obj fields _ ih =>
    intro found p stack rest hp waits hrest
    have opens : parsed (.openObj :: found) = some (.firstKey stack) :=
      parsed_cons hp (waits.step_eq nofun)
    rcases fields with _ | ⟨⟨key, j⟩, fields⟩
    · refine ⟨.closeObj :: .openObj :: found, ?_, parsed_cons opens rfl⟩
      show Lexer.run _ ('{' :: '}' :: rest) = _
      rw [Lexer.run_mark (t := .openObj) rfl, Lexer.run_mark (t := .closeObj) rfl]
    · have colon : parsed (.colon :: .str (some key) :: .openObj :: found) =
          some (.value (.obj (some []) (some key) :: stack)) :=
        parsed_cons (parsed_cons opens rfl) rfl
      obtain ⟨found₁, run₁, hp₁⟩ :=
        ih (key, j) List.mem_cons_self colon (.inl rfl) (delimited_writeFields fields rest)
      obtain ⟨found₂, run₂, hp₂⟩ :=
        run_writeFields (fun k hk => ih k (List.mem_cons_of_mem _ hk)) hp₁ rest
      refine ⟨found₂, ?_, hp₂⟩
      show Lexer.run _ ('{' :: quote key (':' :: j.write (writeFields fields rest))) = _
      rw [Lexer.run_mark (t := .openObj) rfl, Lexer.run_quote, Lexer.run_mark (t := .colon) rfl,
        run₁, run₂]

/-- Reading the text of a plain tree gives the tree back. -/
theorem read?_text {j : Json} (h : j.Plain) : read? j.text = some j := by
  have start : parsed [] = some (.value []) := rfl
  have ends : Lexer.Delimited [] := nofun
  obtain ⟨found, lexed, hp⟩ := h.reads start (.inl rfl) ends
  have tokens : tokens? j.text.toList = some found.reverse := by
    rw [text, String.toList_ofList]
    exact lexed
  rw [read?, tokens]
  show found.reverse.foldlM Parser.step (.value []) >>= Parser.finish = some j
  rw [← parsed, hp]
  rfl

end SqlPlan.Json
