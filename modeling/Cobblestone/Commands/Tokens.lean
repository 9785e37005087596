import Cobblestone.Commands.Reader

namespace Cobblestone.Commands

open Lib

section Words

variable {text rest : Bytes} {char : UInt8}

theorem isSpace_of_mem {word : Bytes} (h : hasSpace word = false) (hchar : char ∈ word) :
    isSpace char = false := by
  rw [hasSpace, List.any_eq_false] at h
  simpa using h char hchar

-- A text that a word may stand before: it is over, or goes on with whitespace.
def Breaks (rest : Bytes) : Prop := ∀ char, rest.head? = some char → isSpace char = true

theorem takeWhile_word {word : Bytes} (hword : hasSpace word = false) (hrest : Breaks rest) :
    (word ++ rest).takeWhile (!isSpace ·) = word := by
  rw [List.takeWhile_append_of_pos fun char hchar => by simp [isSpace_of_mem hword hchar]]
  cases rest with
  | nil => exact List.append_nil word
  | cons char rest =>
    rw [List.takeWhile_cons_of_neg (by simp [hrest char rfl]), List.append_nil]

theorem readWord_of_word {word : Bytes} (cursor : Nat) (hword : word ≠ [])
    (hspace : hasSpace word = false) (hrest : Breaks rest) :
    CommandReader.readWord ⟨cursor, word ++ rest⟩ = .ok (word, ⟨cursor + word.length, rest⟩) := by
  have hskip : CommandReader.skipWhitespace ⟨cursor, word ++ rest⟩ = ⟨cursor, word ++ rest⟩ := by
    cases word with
    | nil => exact absurd rfl hword
    | cons char word =>
      have hchar := isSpace_of_mem hspace List.mem_cons_self
      rw [CommandReader.skipWhitespace, List.cons_append, List.takeWhile_cons_of_neg (by simp [hchar])]
      rfl
  unfold CommandReader.readWord
  dsimp only
  rw [hskip, takeWhile_word hspace hrest, if_neg hword, CommandReader.advance, List.drop_left]

end Words

section Splitting

variable {text spaces word rest : Bytes} {char : UInt8}

theorem splitSpaces_cons_space (h : isSpace char = true) (rest : Bytes) :
    splitSpaces (char :: rest) = splitSpaces rest := by
  rw [splitSpaces, List.splitOnP_cons_eq_if_modifyHead, if_pos h]
  rfl

theorem splitSpaces_spaces (h : ∀ char ∈ spaces, isSpace char = true) (rest : Bytes) :
    splitSpaces (spaces ++ rest) = splitSpaces rest := by
  induction spaces with
  | nil => rfl
  | cons char spaces ih =>
    rw [List.forall_mem_cons] at h
    rw [List.cons_append, splitSpaces_cons_space h.1, ih h.2]

theorem splitSpaces_word (hword : word ≠ []) (hspace : hasSpace word = false) (hrest : Breaks rest) :
    splitSpaces (word ++ rest) = word :: splitSpaces rest := by
  have hall : ∀ char ∈ word, isSpace char = false := fun char => isSpace_of_mem hspace
  cases rest with
  | nil =>
    rw [List.append_nil, splitSpaces, List.splitOnP_eq_singleton hall]
    simp [hword, splitSpaces]
  | cons char rest =>
    have hchar := hrest char rfl
    rw [splitSpaces_cons_space hchar, splitSpaces, List.splitOnP_append_cons_of_forall_mem hall char hchar]
    simp [hword, splitSpaces]

end Splitting

-- Between two tokens the reader stands before whitespace; then comes a word, or nothing.
structure AtWord (reader : CommandReader) (spaces word rest : Bytes) : Prop where
  split : reader.rest = spaces ++ (word ++ rest)
  spaces : ∀ char ∈ spaces, isSpace char = true
  filled : word ≠ []
  word : hasSpace word = false
  breaks : Breaks rest

theorem skipWhitespace_eq {cursor : Nat} {spaces rest : Bytes}
    (hspaces : ∀ char ∈ spaces, isSpace char = true)
    (hrest : ∀ char, rest.head? = some char → isSpace char = false) :
    CommandReader.skipWhitespace ⟨cursor, spaces ++ rest⟩ = ⟨cursor + spaces.length, rest⟩ := by
  have htake : (spaces ++ rest).takeWhile isSpace = spaces := by
    rw [List.takeWhile_append_of_pos hspaces]
    cases rest with
    | nil => exact List.append_nil spaces
    | cons char rest => rw [List.takeWhile_cons_of_neg (by simp [hrest char rfl]), List.append_nil]
  rw [CommandReader.skipWhitespace, htake, CommandReader.advance, List.drop_left]

namespace AtWord

variable {reader : CommandReader} {spaces word rest : Bytes}

theorem skipWhitespace (h : AtWord reader spaces word rest) :
    reader.skipWhitespace = ⟨reader.cursor + spaces.length, word ++ rest⟩ := by
  obtain ⟨cursor, text⟩ := reader
  obtain rfl : text = spaces ++ (word ++ rest) := h.split
  refine skipWhitespace_eq h.spaces fun char hchar => ?_
  obtain ⟨first, word, rfl⟩ := List.exists_cons_of_ne_nil h.filled
  cases hchar
  exact isSpace_of_mem h.word List.mem_cons_self

theorem readWord (h : AtWord reader spaces word rest) :
    reader.readWord = .ok (word, ⟨reader.cursor + spaces.length + word.length, rest⟩) := by
  unfold CommandReader.readWord
  dsimp only
  rw [h.skipWhitespace, takeWhile_word h.word h.breaks, if_neg h.filled, CommandReader.advance,
    List.drop_left]

theorem splitSpaces (h : AtWord reader spaces word rest) :
    splitSpaces reader.rest = word :: Commands.splitSpaces rest := by
  rw [h.split, splitSpaces_spaces h.spaces, splitSpaces_word h.filled h.word h.breaks]

theorem alone (h : AtWord reader spaces word rest) : AtWord (.new word) [] word [] where
  split := (List.append_nil word).symm
  spaces := nofun
  filled := h.filled
  word := h.word
  breaks := nofun

end AtWord

theorem atEnd_or_atWord (reader : CommandReader) :
    (reader.atEnd = true ∧ splitSpaces reader.rest = []) ∨
      (reader.atEnd = false ∧ ∃ spaces word rest, AtWord reader spaces word rest) := by
  cases hend : reader.atEnd with
  | true =>
    have hall := List.all_eq_true.mp hend
    refine .inl ⟨rfl, ?_⟩
    rw [← List.append_nil reader.rest, splitSpaces_spaces hall]
    rfl
  | false =>
    refine .inr ⟨rfl, reader.rest.takeWhile isSpace,
      (reader.rest.dropWhile isSpace).takeWhile (!isSpace ·),
      (reader.rest.dropWhile isSpace).dropWhile (!isSpace ·), ?_, ?_, ?_, ?_, ?_⟩
    · rw [List.takeWhile_append_dropWhile, List.takeWhile_append_dropWhile]
    · exact fun char hchar => List.mem_takeWhile_imp hchar
    · cases hrest : reader.rest.dropWhile isSpace with
      | nil =>
        have hall := List.dropWhile_eq_nil_iff.mp hrest
        rw [CommandReader.atEnd, List.all_eq_true.mpr hall] at hend
        cases hend
      | cons char rest =>
        have hchar := List.head?_dropWhile_not isSpace reader.rest
        rw [hrest] at hchar
        rw [List.takeWhile_cons_of_pos (by simpa using hchar)]
        exact List.cons_ne_nil _ _
    · rw [hasSpace, List.any_eq_false]
      intro char hchar
      simpa using List.mem_takeWhile_imp hchar
    · intro char hchar
      have hnot := List.head?_dropWhile_not (!isSpace ·) (reader.rest.dropWhile isSpace)
      rw [hchar] at hnot
      simpa using hnot

theorem readWord_of_atEnd {reader : CommandReader} (hend : reader.atEnd = true) :
    ∃ cursor, reader.readWord = .error (.parse .expectedToken cursor) := by
  have htake : reader.rest.takeWhile isSpace = reader.rest :=
    List.takeWhile_eq_self_iff.mpr (List.all_eq_true.mp hend)
  refine ⟨reader.cursor + reader.rest.length, ?_⟩
  rw [CommandReader.readWord, CommandReader.skipWhitespace, htake, CommandReader.advance,
    List.drop_length]
  rfl

-- What completion asks of an argument type: a token reads alone as it reads in the input.
structure ArgumentType.ReadsTokens {V : Type} (type : ArgumentType V) : Prop where
  inside : ∀ {reader after : CommandReader} {spaces word rest : Bytes} {value : V},
    AtWord reader spaces word rest → type.parse (.new word) = .ok (value, after) →
      after.atEnd = true → ∃ after, type.parse reader = .ok (value, after) ∧ after.rest = rest
  alone : ∀ {reader after : CommandReader} {spaces word rest : Bytes} {value : V},
    AtWord reader spaces word rest → type.parse reader = .ok (value, after) → after.rest = rest →
      ∃ after, type.parse (.new word) = .ok (value, after) ∧ after.atEnd = true

section Types

variable {V : Type} {type : ArgumentType V}

-- A type that looks at one word, and at the cursor only to report an error.
theorem readsTokens_of_word (f : Nat → Bytes → Except CommandError V)
    (hparse : ∀ reader, type.parse reader =
      reader.readWord.bind fun read => (f reader.cursor read.1).map (·, read.2))
    (hcursor : ∀ cursor cursor' word value, f cursor word = .ok value → f cursor' word = .ok value) :
    type.ReadsTokens where
  inside {reader after spaces word rest value} h hparsed hend := by
    rw [hparse, h.alone.readWord] at hparsed
    cases hf : f (CommandReader.new word).cursor word with
    | error error => simp [Except.bind, Except.map, hf] at hparsed
    | ok found =>
      have hvalue : found = value := by
        simp only [Except.bind, Except.map, hf, Except.ok.injEq, Prod.mk.injEq] at hparsed
        exact hparsed.1
      refine ⟨⟨reader.cursor + spaces.length + word.length, rest⟩, ?_, rfl⟩
      rw [hparse, h.readWord]
      simp only [Except.bind, hcursor _ reader.cursor word found hf, Except.map, hvalue]
  alone {reader after spaces word rest value} h hparsed hrest := by
    rw [hparse, h.readWord] at hparsed
    cases hf : f reader.cursor word with
    | error error => simp [Except.bind, Except.map, hf] at hparsed
    | ok found =>
      have hvalue : found = value := by
        simp only [Except.bind, Except.map, hf, Except.ok.injEq, Prod.mk.injEq] at hparsed
        exact hparsed.1
      refine ⟨⟨(CommandReader.new word).cursor + 0 + word.length, []⟩, ?_, rfl⟩
      rw [hparse, h.alone.readWord]
      simp only [Except.bind, hcursor _ (CommandReader.new word).cursor word found hf, Except.map,
        hvalue, List.length_nil]

theorem BooleanArgumentType_readsTokens (ofBool : Bool → V) :
    (BooleanArgumentType ofBool).ReadsTokens := by
  refine readsTokens_of_word (fun cursor token =>
    if strtolower token = text "true" then .ok (ofBool true)
    else if strtolower token = text "false" then .ok (ofBool false)
    else .error (.parse .expectedBoolean cursor)) (fun reader => ?_) fun cursor cursor' word value h => ?_
  · simp only [BooleanArgumentType, bind]
    rcases reader.readWord with error | ⟨token, rest⟩
    · rfl
    · simp only [Except.bind]
      split_ifs <;> rfl
  · split_ifs at h ⊢ <;> exact h

def enumValue (enum : Bytes) (cases : List (Bytes × V)) (cursor : Nat) (token : Bytes) :
    Except CommandError V :=
  match cases.find? fun case => decide (strtolower case.1 = strtolower token) with
  | some case => .ok case.2
  | none => .error (.parse (.unknownCase enum (strtolower token)) cursor)

theorem EnumArgumentType_readsTokens (enum : Bytes) (cases : List (Bytes × V)) :
    (EnumArgumentType enum cases).ReadsTokens := by
  refine readsTokens_of_word (enumValue enum cases) (fun reader => ?_)
    fun cursor cursor' word value h => ?_
  · simp only [EnumArgumentType, bind]
    rcases reader.readWord with error | ⟨token, rest⟩
    · rfl
    · simp only [Except.bind, enumValue]
      rcases List.find? _ cases with _ | found <;> rfl
  · unfold enumValue at h ⊢
    split at h
    · exact h
    · cases h

def integerValue (ofInt : Int → V) (min max : Int) (cursor : Nat) (token : Bytes) :
    Except CommandError V :=
  if isInteger token then
    match filterInt token with
    | some value =>
      if min ≤ value ∧ value ≤ max then .ok (ofInt value)
      else .error (.parse (.outsideRange token min max) cursor)
    | none => .error (.parse (.outsideRange token min max) cursor)
  else .error (.parse (.expectedInteger token) cursor)

theorem IntegerArgumentType_readsTokens (ofInt : Int → V) (min max : Int) :
    (IntegerArgumentType ofInt min max).ReadsTokens := by
  refine readsTokens_of_word (integerValue ofInt min max) (fun reader => ?_)
    fun cursor cursor' word value h => ?_
  · simp only [IntegerArgumentType, bind]
    rcases reader.readWord with error | ⟨token, rest⟩
    · rfl
    · simp only [Except.bind, integerValue]
      split_ifs
      · rcases filterInt token with _ | found
        · rfl
        · dsimp only
          split_ifs <;> rfl
      · rfl
  · unfold integerValue at h ⊢
    split_ifs at h ⊢
    cases hfilter : filterInt word with
    | none =>
      rw [hfilter] at h
      cases h
    | some found =>
      rw [hfilter] at h
      dsimp only at h ⊢
      split_ifs at h ⊢
      exact h

-- Where the closing quote stands does not depend on what comes after it.
theorem readQuoted_used {value result : Bytes} {escaped : Bool} {cursor : Nat} {text : Bytes}
    {after : CommandReader}
    (h : CommandReader.readQuoted value escaped cursor text = some (result, after)) :
    ∃ used, text = used ++ after.rest ∧ ∀ cursor more,
      CommandReader.readQuoted value escaped cursor (used ++ more) =
        some (result, ⟨cursor + used.length, more⟩) := by
  induction text generalizing value escaped cursor with
  | nil => cases h
  | cons char text ih =>
    have hgo (value' : Bytes) (escaped' : Bool)
        (hstep : ∀ cursor text, CommandReader.readQuoted value escaped cursor (char :: text) =
          CommandReader.readQuoted value' escaped' (cursor + 1) text)
        (hrest : CommandReader.readQuoted value' escaped' (cursor + 1) text = some (result, after)) :
        ∃ used, char :: text = used ++ after.rest ∧ ∀ cursor more,
          CommandReader.readQuoted value escaped cursor (used ++ more) =
            some (result, ⟨cursor + used.length, more⟩) := by
      obtain ⟨used, htext, hmore⟩ := ih hrest
      refine ⟨char :: used, congrArg (char :: ·) htext, fun cursor more => ?_⟩
      rw [List.cons_append, hstep, hmore, List.length_cons, Nat.add_assoc, Nat.add_comm 1]
    rw [CommandReader.readQuoted] at h
    dsimp only at h
    split_ifs at h with hescaped hplain hbackslash hquote
    · exact hgo _ _ (fun _ _ => by rw [CommandReader.readQuoted, if_pos hescaped, if_pos hplain]) h
    · exact hgo _ _ (fun _ _ => by rw [CommandReader.readQuoted, if_pos hescaped, if_neg hplain]) h
    · exact hgo _ _ (fun _ _ => by rw [CommandReader.readQuoted, if_neg hescaped, if_pos hbackslash]) h
    · cases h
      refine ⟨[char], rfl, fun cursor more => ?_⟩
      rw [List.singleton_append, CommandReader.readQuoted, if_neg hescaped, if_neg hbackslash,
        if_pos hquote]
      rfl
    · exact hgo _ _ (fun _ _ => by
        rw [CommandReader.readQuoted, if_neg hescaped, if_neg hbackslash, if_neg hquote]) h

theorem AtWord.readString {reader : CommandReader} {spaces word rest : Bytes} {char : UInt8}
    (h : AtWord reader spaces (char :: word) rest) :
    reader.readString =
      if char ≠ CommandReader.quote then
        .ok (char :: word, ⟨reader.cursor + spaces.length + (char :: word).length, rest⟩)
      else
        match CommandReader.readQuoted [] false (reader.cursor + spaces.length + 1) (word ++ rest) with
        | none => .error (.parse .unterminatedString (reader.cursor + spaces.length))
        | some read => .ok read := by
  unfold CommandReader.readString
  dsimp only
  rw [h.skipWhitespace]
  dsimp only [List.cons_append]
  congr 1
  exact readWord_of_word _ (List.cons_ne_nil _ _) h.word h.breaks

theorem rest_nil_of_atEnd {used word : Bytes} {after : CommandReader} (hword : hasSpace word = false)
    (hsplit : word = used ++ after.rest) (hend : after.atEnd = true) : after.rest = [] := by
  cases hrest : after.rest with
  | nil => rfl
  | cons char rest =>
    have hspace := List.all_eq_true.mp hend char (hrest ▸ List.mem_cons_self)
    have hnot := isSpace_of_mem hword (hsplit ▸ List.mem_append_right used (hrest ▸ List.mem_cons_self))
    exact nomatch hspace.symm.trans hnot

theorem readString_readsTokens (ofText : Bytes → V) :
    (StringArgumentType ofText .string).ReadsTokens where
  inside {reader after spaces word rest value} h hparsed hend := by
    obtain ⟨char, word, rfl⟩ := List.exists_cons_of_ne_nil h.filled
    have hword : hasSpace word = false := (Bool.or_eq_false_iff.mp h.word).2
    simp only [StringArgumentType, bind, h.alone.readString, h.readString, List.append_nil] at hparsed ⊢
    split_ifs at hparsed ⊢ with hquote
    · cases hparsed
      exact ⟨_, rfl, rfl⟩
    · rcases hread : CommandReader.readQuoted [] false
          ((CommandReader.new (char :: word)).cursor + ([] : Bytes).length + 1) word with
        _ | ⟨result, behind⟩
      · rw [hread] at hparsed
        cases hparsed
      · rw [hread] at hparsed
        cases hparsed
        obtain ⟨used, hused, hmore⟩ := readQuoted_used hread
        rw [rest_nil_of_atEnd hword hused hend, List.append_nil] at hused
        rw [hused, hmore]
        exact ⟨_, rfl, rfl⟩
  alone {reader after spaces word rest value} h hparsed hrest := by
    obtain ⟨char, word, rfl⟩ := List.exists_cons_of_ne_nil h.filled
    simp only [StringArgumentType, bind, h.alone.readString, h.readString] at hparsed ⊢
    split_ifs at hparsed ⊢ with hquote
    · cases hparsed
      exact ⟨_, rfl, rfl⟩
    · rcases hread : CommandReader.readQuoted [] false (reader.cursor + spaces.length + 1)
          (word ++ rest) with _ | ⟨result, behind⟩
      · rw [hread] at hparsed
        cases hparsed
      · rw [hread] at hparsed
        cases hparsed
        obtain ⟨used, hused, hmore⟩ := readQuoted_used hread
        rw [hrest] at hused
        rw [List.append_cancel_right hused, hmore]
        exact ⟨_, rfl, rfl⟩

theorem StringArgumentType_readsTokens (ofText : Bytes → V) {mode : StringMode}
    (hmode : (StringArgumentType ofText mode).consumesRemaining = false) :
    (StringArgumentType ofText mode).ReadsTokens := by
  cases mode with
  | word =>
    refine readsTokens_of_word (fun _ token => .ok (ofText token)) (fun reader => ?_) fun _ _ _ _ h => h
    simp only [StringArgumentType, bind]
    rcases reader.readWord with error | ⟨token, rest⟩ <;> rfl
  | string => exact readString_readsTokens ofText
  | greedy => cases hmode

end Types

end Cobblestone.Commands
