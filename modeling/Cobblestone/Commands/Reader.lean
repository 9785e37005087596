import Cobblestone.Lib.Bytes
import Mathlib.Data.List.DropRight

namespace Cobblestone.Commands

open Lib

-- Byte strings, with PHP's string functions as far as the command tree uses them.
def isSpace (char : UInt8) : Bool := char = 32 || (9 ≤ char && char ≤ 13)

-- The default list of trim() has the NUL byte and lacks the form feed.
def isTrimmed (char : UInt8) : Bool := char ∈ ([32, 10, 13, 9, 11, 0] : Bytes)

def ltrim (text : Bytes) : Bytes := text.dropWhile isTrimmed

def rtrim (text : Bytes) : Bytes := text.rdropWhile isTrimmed

def trim (text : Bytes) : Bytes := rtrim (ltrim text)

def lowerByte (char : UInt8) : UInt8 := if 65 ≤ char && char ≤ 90 then char + 32 else char

def strtolower (text : Bytes) : Bytes := text.map lowerByte

def hasSpace (text : Bytes) : Bool := text.any isSpace

def endsInSpace (text : Bytes) : Bool := text.getLast?.any isSpace

def slash : UInt8 := 47

def dropSlash (text : Bytes) : Bytes := if text.head? = some slash then text.tail else text

-- preg_split('/\s+/', …, PREG_SPLIT_NO_EMPTY)
def splitSpaces (text : Bytes) : List Bytes := (text.splitOnP isSpace).filter (· ≠ [])

def decimal (n : Int) : Bytes :=
  (if n < 0 then [45] else []) ++ (Nat.toDigits 10 n.natAbs).map fun digit => digit.toNat.toUInt8

def parseDigits (digits : Bytes) : Nat := digits.foldl (fun n digit => n * 10 + (digit.toNat - 48)) 0

def parseInteger (text : Bytes) : Int :=
  match text with
  | 45 :: digits => -parseDigits digits
  | digits => parseDigits digits

def inInt (n : Int) : Bool := -9223372036854775808 ≤ n && n ≤ 9223372036854775807

-- An array turns a key that is the decimal form of an integer into that integer.
inductive ArrayKey where
  | int (n : Int)
  | str (text : Bytes)
deriving DecidableEq, Repr

def keyOf (text : Bytes) : ArrayKey :=
  let n := parseInteger text
  if decimal n = text ∧ inInt n then .int n else .str text

def ArrayKey.isInt : ArrayKey → Bool
  | .int _ => true
  | .str _ => false

theorem keyOf_injective : Function.Injective keyOf := by
  intro first second heq
  unfold keyOf at heq
  dsimp only at heq
  split_ifs at heq with hfirst hsecond
  · rw [← hfirst.1, ← hsecond.1, ArrayKey.int.inj heq]
  · exact ArrayKey.str.inj heq

theorem eq_of_keyOf_eq_str {name text : Bytes} (h : keyOf name = .str text) : text = name := by
  unfold keyOf at h
  dsimp only at h
  split_ifs at h
  exact (ArrayKey.str.inj h).symm

theorem exists_names_of_not_isInt {keys : List ArrayKey} (h : ∀ key ∈ keys, key.isInt = false) :
    ∃ names : List Bytes, keys = names.map ArrayKey.str := by
  induction keys with
  | nil => exact ⟨[], rfl⟩
  | cons key keys ih =>
    rw [List.forall_mem_cons] at h
    obtain ⟨names, rfl⟩ := ih h.2
    cases key with
    | int n => exact nomatch h.1
    | str name => exact ⟨name :: names, rfl⟩

theorem forall_byte {p : UInt8 → Prop} (h : ∀ n : Fin 256, p (.ofFin n)) (char : UInt8) : p char :=
  h char.toFin

theorem lowerByte_idem (char : UInt8) : lowerByte (lowerByte char) = lowerByte char := by
  revert char
  exact forall_byte (by decide +kernel)

theorem isSpace_lowerByte (char : UInt8) : isSpace (lowerByte char) = isSpace char := by
  revert char
  exact forall_byte (by decide +kernel)

theorem isTrimmed_lowerByte (char : UInt8) : isTrimmed (lowerByte char) = isTrimmed char := by
  revert char
  exact forall_byte (by decide +kernel)

theorem hasSpace_strtolower (text : Bytes) : hasSpace (strtolower text) = hasSpace text := by
  rw [hasSpace, strtolower, List.any_map]
  exact congrArg (text.any ·) (funext isSpace_lowerByte)

theorem strtolower_idem (text : Bytes) : strtolower (strtolower text) = strtolower text := by
  rw [strtolower, strtolower, List.map_map]
  exact List.map_congr_left fun char _ => lowerByte_idem char

theorem ltrim_strtolower (text : Bytes) : ltrim (strtolower text) = strtolower (ltrim text) := by
  rw [ltrim, strtolower, List.dropWhile_map]
  exact congrArg (fun p => (text.dropWhile p).map lowerByte) (funext isTrimmed_lowerByte)

theorem rtrim_eq (text : Bytes) : rtrim text = (ltrim text.reverse).reverse := rfl

theorem trim_strtolower (text : Bytes) : trim (strtolower text) = strtolower (trim text) := by
  rw [trim, ltrim_strtolower, rtrim_eq, strtolower, ← List.map_reverse, ← strtolower,
    ltrim_strtolower, strtolower, ← List.map_reverse]
  rfl

theorem head_ltrim {text rest : Bytes} {char : UInt8} (h : ltrim text = char :: rest) :
    isTrimmed char = false := by
  have hhead := List.head?_dropWhile_not isTrimmed text
  rw [show text.dropWhile isTrimmed = char :: rest from h] at hhead
  simpa using hhead

theorem ltrim_cons {char : UInt8} (h : isTrimmed char = false) (rest : Bytes) :
    ltrim (char :: rest) = char :: rest := by
  rw [ltrim, List.dropWhile_cons_of_neg (by simp [h])]

theorem ltrim_ltrim (text : Bytes) : ltrim (ltrim text) = ltrim text :=
  List.dropWhile_idempotent isTrimmed text

theorem rtrim_rtrim (text : Bytes) : rtrim (rtrim text) = rtrim text :=
  List.rdropWhile_idempotent isTrimmed text

theorem rtrim_cons {char : UInt8} (h : isTrimmed char = false) (rest : Bytes) :
    rtrim (char :: rest) = char :: rtrim rest := by
  rw [rtrim_eq, rtrim_eq, ltrim, ltrim, List.reverse_cons, List.dropWhile_append]
  split
  · next hempty =>
    rw [List.isEmpty_iff.mp hempty, List.dropWhile_cons_of_neg (by simp [h])]
    rfl
  · rw [List.reverse_append]
    rfl

theorem ltrim_rtrim_ltrim (text : Bytes) : ltrim (rtrim (ltrim text)) = rtrim (ltrim text) := by
  cases htext : ltrim text with
  | nil => rfl
  | cons char rest =>
    have hchar := head_ltrim htext
    rw [rtrim_cons hchar, ltrim_cons hchar]

theorem trim_trim (text : Bytes) : trim (trim text) = trim text := by
  rw [trim, trim, ltrim_rtrim_ltrim, rtrim_rtrim]

theorem dropSlash_slash (text : Bytes) : dropSlash (slash :: text) = text := rfl

theorem hasSpace_of_endsInSpace {text : Bytes} (h : endsInSpace text = true) :
    hasSpace text = true := by
  unfold endsInSpace at h
  cases hlast : text.getLast? with
  | none =>
    rw [hlast] at h
    cases h
  | some char =>
    rw [hlast] at h
    exact List.any_eq_true.mpr ⟨char, List.mem_of_getLast? hlast, h⟩

inductive ParseProblem where
  | emptyInput
  | unknownCommand (token : Bytes)
  | incomplete
  | unexpectedToken (token : Bytes)
  | expectedToken
  | expectedString
  | unterminatedString
  | expectedRemaining
  | expectedBoolean
  | unknownCase (enum token : Bytes)
  | expectedInteger (token : Bytes)
  | outsideRange (token : Bytes) (min max : Int)
deriving DecidableEq, Repr

inductive CommandError where
  | parse (problem : ParseProblem) (cursor : Nat)
  | requirement (cursor : Nat)
  | typeError
  -- What an argument type or a suggestion provider from outside may throw.
  | other (reason : Bytes)
deriving DecidableEq, Repr

def text (s : String) : Bytes := s.toUTF8.toList

def ParseProblem.message : ParseProblem → Bytes
  | .emptyInput => text "command input is empty"
  | .unknownCommand token => text "unknown command: " ++ token
  | .incomplete => text "incomplete command"
  | .unexpectedToken token => text "unexpected token: " ++ token
  | .expectedToken => text "expected command token"
  | .expectedString => text "expected string"
  | .unterminatedString => text "unterminated quoted string"
  | .expectedRemaining => text "expected remaining command text"
  | .expectedBoolean => text "expected boolean true or false"
  | .unknownCase enum token => text "unknown " ++ enum ++ text " value: " ++ token
  | .expectedInteger token => text "expected integer, got \"" ++ token ++ text "\""
  | .outsideRange token min max =>
    text "integer " ++ token ++ text " is outside " ++ decimal min ++ text ".." ++ decimal max

-- The input from the cursor on: nothing reads what lies before it.
structure CommandReader where
  cursor : Nat
  rest : Bytes
deriving DecidableEq, Repr

namespace CommandReader

def new (input : Bytes) : CommandReader := ⟨0, input⟩

def advance (reader : CommandReader) (count : Nat) : CommandReader :=
  ⟨reader.cursor + count, reader.rest.drop count⟩

def atEnd (reader : CommandReader) : Bool := reader.rest.all isSpace

def skipWhitespace (reader : CommandReader) : CommandReader :=
  reader.advance (reader.rest.takeWhile isSpace).length

def readWord (reader : CommandReader) : Except CommandError (Bytes × CommandReader) :=
  let reader := reader.skipWhitespace
  let word := reader.rest.takeWhile (!isSpace ·)
  if word = [] then .error (.parse .expectedToken reader.cursor)
  else .ok (word, reader.advance word.length)

def quote : UInt8 := 34

def backslash : UInt8 := 92

-- The loop of readString() behind the opening quote.
def readQuoted (value : Bytes) (escaped : Bool) (cursor : Nat) :
    Bytes → Option (Bytes × CommandReader)
  | [] => none
  | char :: rest =>
    if escaped then
      let value := if char ≠ quote ∧ char ≠ backslash then value ++ [backslash] else value
      readQuoted (value ++ [char]) false (cursor + 1) rest
    else if char = backslash then readQuoted value true (cursor + 1) rest
    else if char = quote then some (value, ⟨cursor + 1, rest⟩)
    else readQuoted (value ++ [char]) false (cursor + 1) rest

def readString (reader : CommandReader) : Except CommandError (Bytes × CommandReader) :=
  let reader := reader.skipWhitespace
  match reader.rest with
  | [] => .error (.parse .expectedString reader.cursor)
  | char :: rest =>
    if char ≠ quote then reader.readWord
    else
      match readQuoted [] false (reader.cursor + 1) rest with
      | none => .error (.parse .unterminatedString reader.cursor)
      | some read => .ok read

def readRemaining (reader : CommandReader) : Except CommandError (Bytes × CommandReader) :=
  let reader := reader.skipWhitespace
  if reader.rest = [] then .error (.parse .expectedRemaining reader.cursor)
  else .ok (reader.rest, reader.advance reader.rest.length)

end CommandReader

-- An argument type over the values `V`; plugins may bring their own.
structure ArgumentType (V : Type) where
  parse : CommandReader → Except CommandError (V × CommandReader)
  valueType : Bytes
  suggestions : Bytes → List Bytes
  consumesRemaining : Bool

section Types

variable {V : Type}

def BooleanArgumentType (ofBool : Bool → V) : ArgumentType V where
  parse reader := do
    let (token, rest) ← reader.readWord
    if strtolower token = text "true" then .ok (ofBool true, rest)
    else if strtolower token = text "false" then .ok (ofBool false, rest)
    else .error (.parse .expectedBoolean reader.cursor)
  valueType := text "bool"
  suggestions word := [text "true", text "false"].filter (strtolower word).isPrefixOf
  consumesRemaining := false

-- The cases in order, each with its token.
def EnumArgumentType (enum : Bytes) (cases : List (Bytes × V)) : ArgumentType V where
  parse reader := do
    let (token, rest) ← reader.readWord
    match cases.find? fun case => decide (strtolower case.1 = strtolower token) with
    | some case => .ok (case.2, rest)
    | none => .error (.parse (.unknownCase enum (strtolower token)) reader.cursor)
  valueType := enum
  suggestions word :=
    (cases.map Prod.fst).filter fun value => (strtolower word).isPrefixOf (strtolower value)
  consumesRemaining := false

def isDigit (char : UInt8) : Bool := 48 ≤ char && char ≤ 57

def isInteger (token : Bytes) : Bool :=
  let digits := if token.head? = some 45 then token.tail else token
  digits ≠ [] && digits.all isDigit

-- FILTER_VALIDATE_INT takes an optional minus, and no leading zeros.
def filterInt (token : Bytes) : Option Int :=
  let digits := if token.head? = some 45 then token.tail else token
  if digits.head? = some 48 ∧ digits.length ≠ 1 then none
  else if inInt (parseInteger token) then some (parseInteger token)
  else none

def IntegerArgumentType (ofInt : Int → V) (min max : Int) : ArgumentType V where
  parse reader := do
    let (token, rest) ← reader.readWord
    if isInteger token then
      match filterInt token with
      | some value =>
        if min ≤ value ∧ value ≤ max then .ok (ofInt value, rest)
        else .error (.parse (.outsideRange token min max) reader.cursor)
      | none => .error (.parse (.outsideRange token min max) reader.cursor)
    else .error (.parse (.expectedInteger token) reader.cursor)
  valueType := text "int"
  suggestions _ := []
  consumesRemaining := false

inductive StringMode where
  | word
  | string
  | greedy
deriving DecidableEq, Repr

def StringArgumentType (ofText : Bytes → V) (mode : StringMode) : ArgumentType V where
  parse reader := do
    let (value, rest) ←
      match mode with
      | .word => reader.readWord
      | .string => reader.readString
      | .greedy => reader.readRemaining
    .ok (ofText value, rest)
  valueType := text "string"
  suggestions _ := []
  consumesRemaining := decide (mode = .greedy)

end Types

end Cobblestone.Commands
