import Trellis.Core.Json

/-!
# Reading JSON texts

`JSON.parse` on texts without white space, and what it makes of the texts of separated items and
members, strings and numbers. Of a number only its text counts.
-/

namespace Trellis.Core

open List Nat Prod

/-! ## Strings -/

def unescaped (c : Char) : Char :=
  if c = 'b' then Char.ofNat 8 else if c = 'f' then Char.ofNat 12 else if c = 'n' then '\n'
  else if c = 'r' then '\r' else if c = 't' then '\t' else c

def hexValue (c : Char) : Nat :=
  if c.toNat < 58 then c.toNat - 48 else c.toNat - 87

/-- The characters of a string up to its closing quotation mark, and what follows it. -/
def readString : List Char → Option (List Char × List Char)
  | [] => none
  | '"' :: rest => some ([], rest)
  | '\\' :: 'u' :: _ :: _ :: a :: b :: rest =>
    (readString rest).map (map (Char.ofNat (16 * hexValue a + hexValue b) :: ·) id)
  | '\\' :: c :: rest => (readString rest).map (map (unescaped c :: ·) id)
  | c :: rest => (readString rest).map (map (c :: ·) id)

theorem hexValue_digits (n : Nat) (h : n < 32) :
    16 * hexValue (digitChar (n / 16)) + hexValue (digitChar (n % 16)) = n := by
  have hall : ∀ m : Fin 32, 16 * hexValue (digitChar (m.1 / 16)) +
      hexValue (digitChar (m.1 % 16)) = m.1 := by
    decide
  exact hall ⟨n, h⟩

theorem readString_escapeChar (c : Char) (rest : List Char) :
    readString (escapeChar c ++ rest) = (readString rest).map (map (c :: ·) id) := by
  have hcode : ∀ n : Nat, c.toNat = n → Char.ofNat n = c := by
    rintro n rfl
    exact Char.ofNat_toNat c
  unfold escapeChar
  split
  · rename_i h
    subst h
    rfl
  · split
    · rename_i h
      subst h
      rfl
    · iterate 5
        split
        · rename_i h
          rw [← hcode _ h]
          rfl
      split
      · rename_i h
        simp [readString, hexValue_digits c.toNat h, Char.ofNat_toNat]
      · simp only [cons_append, nil_append]
        rw [readString.eq_def]
        split <;> simp_all

theorem readString_quote (s : String) (rest : List Char) :
    readString (s.toList.flatMap escapeChar ++ '"' :: rest) = some (s.toList, rest) := by
  induction s.toList with
  | nil => rfl
  | cons c cs ih => simp [readString_escapeChar, ih]

/-! ## Values -/

/-- How numerals are read: as a number with the same text, and nothing else as a number. -/
structure NumberReader where
  read : List Char → Option Number
  read_text : ∀ d, ∃ n, read (numberText (.finite d)) = some n ∧
    numberText n = numberText (.finite d)
  eq_text : ∀ text n, read text = some n → ∃ d, text = numberText (.finite d)

/-- Things separated by commas, up to the closing bracket. -/
def parseMany {α : Type} (p : List Char → Option (α × List Char)) (close : Char) :
    Nat → List Char → Option (List α × List Char)
  | 0, _ => none
  | n + 1, cs =>
    match p cs with
    | some (x, c :: rest) =>
      if c = close then some ([x], rest)
      else if c = ',' then (parseMany p close n rest).map (map (x :: ·) id)
      else none
    | _ => none

def parseMember (p : List Char → Option (Value × List Char)) (cs : List Char) :
    Option ((String × Value) × List Char) :=
  match cs with
  | '"' :: cs =>
    match readString cs with
    | some (key, ':' :: rest) => (p rest).map (map (String.ofList key, ·) id)
    | _ => none
  | _ => none

def isDelimiter (c : Char) : Bool :=
  c = ',' || c = ']' || c = '}'

variable (reader : NumberReader)

def parseToken (token : List Char) : Option Value :=
  if token = "null".toList then some .null
  else if token = "true".toList then some (.bool true)
  else if token = "false".toList then some (.bool false)
  else (reader.read token).map .num

/-- The value that a text begins with, and what follows it; `n` bounds the length of the value's
text. -/
def parseValue : Nat → List Char → Option (Value × List Char)
  | 0, _ => none
  | _ + 1, '"' :: cs => (readString cs).map (map (.str <| String.ofList ·) id)
  | _ + 1, '[' :: ']' :: rest => some (.arr [], rest)
  | n + 1, '[' :: cs => (parseMany (parseValue n) ']' n cs).map (map .arr id)
  | _ + 1, '{' :: '}' :: rest => some (.obj [], rest)
  | n + 1, '{' :: cs => (parseMany (parseMember (parseValue n)) '}' n cs).map (map .obj id)
  | _ + 1, cs =>
    (parseToken reader (cs.takeWhile (!isDelimiter ·))).map (·, cs.dropWhile (!isDelimiter ·))

/-- `JSON.parse`. -/
def parse (text : List Char) : Option Value :=
  match parseValue reader (text.length + 1) text with
  | some (v, []) => some v
  | _ => none

/-! ## What is read -/

def Delimited (rest : List Char) : Prop :=
  ∀ c ∈ rest.head?, isDelimiter c = true

/-- The text is read as a value, or as none, wherever it stands. -/
def Reads (s : List Char) (o : Option Value) : Prop :=
  ∀ n rest, s.length < n + 1 → Delimited rest →
    parseValue reader (n + 1) (s ++ rest) = o.map (·, rest)

/-- The text is read as a member, or as none. -/
def ReadsMember (text : List Char) (o : Option (String × Value)) : Prop :=
  ∃ key value o', text = memberText key value ∧ o = o'.map (key, ·) ∧ Reads reader value o'

variable {reader} {s : List Char} {texts : List (List Char)}

theorem Reads.parse_eq {o : Option Value} (h : Reads reader s o) : parse reader s = o := by
  have hread := h s.length [] (by omega) nofun
  rw [append_nil] at hread
  rw [parse, hread]
  cases o <;> rfl

theorem ReadsMember.parseMember_eq {text : List Char} {o : Option (String × Value)}
    (h : ReadsMember reader text o) {n : Nat} (rest : List Char) (hn : text.length < n)
    (hrest : Delimited rest) :
    parseMember (parseValue reader n) (text ++ rest) = o.map (·, rest) := by
  obtain ⟨key, value, o, rfl, rfl, hvalue⟩ := h
  obtain ⟨n, rfl⟩ := exists_eq_succ_of_ne_zero (n := n) (by omega)
  have hread := readString_quote key (':' :: (value ++ rest))
  simp only [memberText, length_append, length_cons] at hn
  simp only [memberText, quote, parseMember, cons_append, append_assoc, nil_append, hread,
    hvalue n rest (by omega) hrest, String.ofList_toList]
  cases o <;> rfl

section Separated

variable {α : Type} {p : List Char → Option (α × List Char)} {close : Char} {n : Nat}
  {os : List (Option α)}

theorem length_le_commaSeparated (texts : List (List Char)) :
    texts.length ≤ (commaSeparated texts).length + 1 ∧
      ∀ text ∈ texts, text.length ≤ (commaSeparated texts).length := by
  cases texts with
  | nil => simp
  | cons first texts =>
    rw [commaSeparated, length_append, length_cons]
    induction texts with
    | nil => simp
    | cons next texts ih =>
      simp only [flatMap_cons, length_append, length_cons, mem_cons, forall_eq_or_imp] at ih ⊢
      refine ⟨by omega, by omega, by omega, fun text htext => ?_⟩
      have hle := ih.2.2 text htext
      omega

theorem parseMany_eq {m : Nat} (hclose : isDelimiter close = true ∧ close ≠ ',')
    (h : List.Forall₂ (fun text o => ∀ rest, text.length < m → Delimited rest →
      p (text ++ rest) = o.map (·, rest)) texts os)
    (hlengths : ∀ text ∈ texts, text.length < m) (hne : texts ≠ []) (hn : texts.length ≤ n)
    (rest : List Char) : parseMany p close n (commaSeparated texts ++ close :: rest) =
      (os.mapM id).map (·, rest) := by
  induction h generalizing n with
  | nil => exact absurd rfl hne
  | @cons text o texts os hfirst hothers ih =>
    obtain ⟨n, rfl⟩ := exists_eq_succ_of_ne_zero (n := n) (by rintro rfl; simp at hn)
    have hread := fun rest => hfirst rest (hlengths text mem_cons_self)
    cases hothers with
    | nil =>
      have hp := hread (close :: rest) (by simpa [Delimited] using hclose.1)
      simp only [parseMany, commaSeparated, flatMap_nil, append_nil, hp]
      cases o <;> simp
    | @cons next o' texts os _ _ =>
      have hrest := ih (fun text htext => hlengths text (mem_cons_of_mem _ htext)) (by simp)
        (n := n) (by simpa using hn)
      have hp := hread (',' :: (commaSeparated (next :: texts) ++ close :: rest))
        (by simp [Delimited, isDelimiter])
      have hsplit : commaSeparated (text :: next :: texts) ++ close :: rest =
          text ++ ',' :: (commaSeparated (next :: texts) ++ close :: rest) := by
        simp [commaSeparated]
      rw [parseMany, hsplit, hp]
      cases o with
      | none => simp
      | some x =>
        simp only [Option.map_some, hclose.2.symm, if_false, if_true, hrest]
        rw [mapM_cons (a := some x)]
        cases mapM id (o' :: os) <;> rfl

theorem parseMany_separated (hclose : isDelimiter close = true ∧ close ≠ ',')
    (h : List.Forall₂ (fun text o => ∀ rest, text.length < n → Delimited rest →
      p (text ++ rest) = o.map (·, rest)) texts os) (hne : texts ≠ [])
    (hn : (commaSeparated texts ++ [close]).length < n) (rest : List Char) :
    parseMany p close n (commaSeparated texts ++ close :: rest) = (os.mapM id).map (·, rest) := by
  obtain ⟨hcount, hlengths⟩ := length_le_commaSeparated texts
  rw [length_append, length_singleton] at hn
  refine parseMany_eq hclose h (fun text htext => ?_) hne (by omega) rest
  have hle := hlengths text htext
  omega

end Separated

theorem reads_arr {os : List (Option Value)} (h : List.Forall₂ (Reads reader) texts os)
    (hempty : texts ≠ [[]]) (hclose : ∀ text ∈ texts, text.head? ≠ some ']') :
    Reads reader ('[' :: (commaSeparated texts ++ [']'])) ((os.mapM id).map .arr) := by
  intro n rest hn hrest
  rw [cons_append, append_assoc, singleton_append]
  cases h with
  | nil => rfl
  | @cons text o texts os hfirst hothers =>
    have hitems := List.Forall₂.cons hfirst hothers
    have hmany := parseMany_separated (p := parseValue reader n) (n := n)
      (show isDelimiter ']' = true ∧ _ by decide) (hitems.imp fun text o hread rest hlength hrest => ?_) (by simp)
      (by simpa using hn) rest
    · rw [parseValue, hmany]
      · cases mapM id (o :: os) <;> rfl
      · intro rest' heq
        have hhead := hclose text mem_cons_self
        cases text with
        | nil =>
          cases texts with
          | nil => exact hempty rfl
          | cons => simp [commaSeparated] at heq
        | cons c text =>
          simp only [commaSeparated, cons_append, cons.injEq, head?_cons] at heq hhead
          exact hhead (congrArg some heq.1)
    · obtain ⟨n, rfl⟩ := exists_eq_succ_of_ne_zero (n := n) (by omega)
      exact hread n rest hlength hrest

theorem reads_obj {os : List (Option (String × Value))}
    (h : List.Forall₂ (ReadsMember reader) texts os) :
    Reads reader ('{' :: (commaSeparated texts ++ ['}'])) ((os.mapM id).map .obj) := by
  intro n rest hn hrest
  rw [cons_append, append_assoc, singleton_append]
  cases h with
  | nil => rfl
  | @cons text o texts os hfirst hothers =>
    have hmembers := List.Forall₂.cons hfirst hothers
    have hmany := parseMany_separated (n := n) (show isDelimiter '}' = true ∧ _ by decide)
      (hmembers.imp fun _ _ hread => hread.parseMember_eq (n := n)) (by simp)
      (by simpa using hn) rest
    rw [parseValue, hmany]
    · cases mapM id (o :: os) <;> rfl
    · intro rest' heq
      obtain ⟨key, value, -, rfl, -, -⟩ := hfirst
      simp [commaSeparated, memberText, quote] at heq

/-! ## Tokens -/

def isNumeral (c : Char) : Bool :=
  c.isDigit || c = '.' || c = 'e' || c = '+' || c = '-'

theorem isNumeral_of_mem_toDigits {n : Nat} {c : Char} (h : c ∈ toDigits 10 n) :
    isNumeral c = true := by
  simp [isNumeral, isDigit_of_mem_toDigits (by decide) (by decide) h]

theorem isNumeral_of_mem_exponentText {n : Int} {c : Char} (h : c ∈ exponentText n) :
    isNumeral c = true := by
  simp only [exponentText, mem_cons] at h
  rcases h with rfl | rfl | h
  · rfl
  · split <;> rfl
  · exact isNumeral_of_mem_toDigits h

theorem isNumeral_of_mem_numberText {d : Decimal} {c : Char} (h : c ∈ numberText (.finite d)) :
    isNumeral c = true := by
  have hsigns : isNumeral '.' = true ∧ isNumeral '0' = true ∧ isNumeral '-' = true := by decide
  have hdigits := isNumeral_of_mem_toDigits (n := d.digits) (c := c)
  have hexponent := fun n => isNumeral_of_mem_exponentText (n := n) (c := c)
  have htake := fun n => mem_of_mem_take (a := c) (i := n) (l := toDigits 10 d.digits)
  have hdrop := fun n => mem_of_mem_drop (a := c) (i := n) (l := toDigits 10 d.digits)
  simp only [numberText, decimalText] at h
  grind

theorem numberText_ne_nil (d : Decimal) : numberText (.finite d) ≠ [] := by
  have hdigits := toDigits_ne_nil (n := d.digits) (b := 10)
  simp only [numberText, decimalText]
  repeat' split
  all_goals simp [hdigits]

theorem read_eq_none {token : List Char} (h : token = [] ∨ ∃ c ∈ token, isNumeral c = false) :
    reader.read token = none := by
  by_contra hread
  obtain ⟨n, hn⟩ := Option.ne_none_iff_exists'.mp hread
  obtain ⟨d, rfl⟩ := reader.eq_text token n hn
  rcases h with hnil | ⟨c, hc, hnot⟩
  · exact numberText_ne_nil d hnil
  · simp [isNumeral_of_mem_numberText hc] at hnot

theorem reads_token {token : List Char} (h : ∀ c ∈ token, isDelimiter c = false)
    (hhead : ∀ c ∈ token.head?, c ≠ '"' ∧ c ≠ '[' ∧ c ≠ '{') :
    Reads reader token (parseToken reader token) := by
  intro n rest hn hrest
  have hstops : rest.takeWhile (!isDelimiter ·) = [] ∧ rest.dropWhile (!isDelimiter ·) = rest := by
    cases rest with
    | nil => simp
    | cons c rest =>
      have hc := hrest c rfl
      simp [hc]
  have htoken : ∀ c ∈ token, (!isDelimiter c) = true := by simpa using h
  have hfirst : ∀ c l, token ++ rest = c :: l → c ≠ '"' ∧ c ≠ '[' ∧ c ≠ '{' := by
    intro c l heq
    cases token with
    | nil =>
      have hc := hrest c (by rw [nil_append] at heq; rw [heq]; rfl)
      refine ⟨?_, ?_, ?_⟩ <;> rintro rfl <;> cases hc
    | cons c' token =>
      cases heq
      exact hhead _ rfl
  rw [parseValue]
  · rw [takeWhile_append_of_pos htoken, dropWhile_append_of_pos htoken, hstops.1, hstops.2,
      append_nil]
  all_goals
    intros
    rename_i heq
    have hne := hfirst _ _ heq
    simp at hne

theorem reads_null : Reads reader "null".toList (some .null) :=
  reads_token (by simp [isDelimiter]) (by simp)

theorem reads_number (d : Decimal) : ∃ n, numberText n = numberText (.finite d) ∧
    Reads reader (numberText (.finite d)) (some (.num n)) := by
  obtain ⟨n, hread, htext⟩ := reader.read_text d
  have hnumeral := fun c => isNumeral_of_mem_numberText (d := d) (c := c)
  have hword : ∀ word : List Char, (∃ c ∈ word, isNumeral c = false) →
      numberText (.finite d) ≠ word := by
    rintro word ⟨c, hc, hnot⟩ rfl
    simp [hnumeral c hc] at hnot
  have htoken : parseToken reader (numberText (.finite d)) = some (.num n) := by
    rw [parseToken, if_neg (hword _ ⟨'n', by decide, rfl⟩), if_neg (hword _ ⟨'t', by decide, rfl⟩),
      if_neg (hword _ ⟨'f', by decide, rfl⟩), hread, Option.map_some]
  refine ⟨n, htext, htoken ▸ reads_token (fun c hc => ?_) fun c hc => ?_⟩
  · have hc' := hnumeral c hc
    by_contra hnot
    simp only [isDelimiter, Bool.not_eq_false, Bool.or_eq_true, decide_eq_true_eq] at hnot
    rcases hnot with (rfl | rfl) | rfl <;> cases hc'
  · have hc' := hnumeral c (mem_of_mem_head? hc)
    refine ⟨?_, ?_, ?_⟩ <;> rintro rfl <;> cases hc'

theorem reads_quote (text : String) : Reads reader (quote text) (some (.str text)) := by
  intro n rest _ _
  have hread := readString_quote text rest
  simp [quote, parseValue, hread]

theorem reads_primitive {v : Value} (h : primitiveText v = some s) :
    ∃ u, primitiveText u = some s ∧ Reads reader s (some u) := by
  cases v with
  | null =>
    cases h
    exact ⟨.null, rfl, reads_null⟩
  | bool b =>
    refine ⟨.bool b, h, ?_⟩
    cases b <;> cases h <;> exact reads_token (by simp [isDelimiter]) (by simp)
  | num n =>
    cases n with
    | finite d =>
      cases h
      obtain ⟨n, htext, hread⟩ := @reads_number reader d
      exact ⟨.num n, congrArg some htext, hread⟩
    | infinite _ | nan =>
      cases h
      exact ⟨.null, rfl, reads_null⟩
  | str text =>
    cases h
    exact ⟨.str text, rfl, reads_quote text⟩
  | undefined | arr _ | obj _ => cases h

/-! ## Items and members that are read -/

theorem Reads.head?_ne {u : Value} (h : Reads reader s (some u)) : s ≠ [] ∧ s.head? ≠ some ']' := by
  have hnone : parseToken reader [] = none := by
    have hread : reader.read [] = none := read_eq_none (.inl rfl)
    simp [parseToken, hread]
  have hread := h s.length [] (by omega) nofun
  constructor
  · rintro rfl
    simp [parseValue, hnone] at hread
  · intro hhead
    obtain ⟨l, rfl⟩ := head?_eq_some_iff.mp hhead
    simp [parseValue, hnone, isDelimiter] at hread

theorem mapM_id_eq_some {α : Type} {os : List (Option α)} {xs : List α} :
    os.mapM id = some xs ↔ os = xs.map some := by
  induction os generalizing xs with
  | nil => cases xs <;> simp
  | cons o os ih =>
    cases xs with
    | nil => cases o <;> simp [Option.bind_eq_some_iff]
    | cons x xs => cases o <;> simp [Option.bind_eq_some_iff, ih, And.comm]

theorem reads_items {us : List Value}
    (h : List.Forall₂ (fun text u => Reads reader text (some u)) texts us) :
    Reads reader ('[' :: (commaSeparated texts ++ [']'])) (some (.arr us)) := by
  have hheads : ∀ text ∈ texts, text ≠ [] ∧ text.head? ≠ some ']' := by
    induction h with
    | nil => exact nofun
    | cons hfirst _ ih => exact forall_mem_cons.mpr ⟨hfirst.head?_ne, ih⟩
  have harr := reads_arr (forall₂_map_right_iff.mpr h)
    (fun hempty => (hheads [] (by simp [hempty])).1 rfl) fun text htext => (hheads text htext).2
  rw [mapM_id_eq_some.mpr rfl] at harr
  exact harr

theorem reads_members {us : List (String × Value)}
    (h : List.Forall₂ (fun text u => ReadsMember reader text (some u)) texts us) :
    Reads reader ('{' :: (commaSeparated texts ++ ['}'])) (some (.obj us)) := by
  have hobj := reads_obj (forall₂_map_right_iff.mpr h)
  rw [mapM_id_eq_some.mpr rfl] at hobj
  exact hobj

/-- Numerals read by their text alone. -/
noncomputable def opaqueNumbers : NumberReader where
  read text := open Classical in
    if h : ∃ d, numberText (.finite d) = text then some (.finite h.choose) else none
  read_text d := by
    have h : ∃ d', numberText (.finite d') = numberText (.finite d) := ⟨d, rfl⟩
    exact ⟨_, dif_pos h, h.choose_spec⟩
  eq_text text n h := by
    by_cases hd : ∃ d, numberText (.finite d) = text
    · exact ⟨_, hd.choose_spec.symm⟩
    · simp [hd] at h

end Trellis.Core
