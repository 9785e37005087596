import Cobblestone.Commands.Reader
import Cobblestone.Lib.OrderedMap

namespace Cobblestone.Commands

open Lib

def IsToken (name : Bytes) : Prop :=
  name ≠ [] ∧ hasSpace name = false ∧ trim name = name ∧ strtolower name = name

structure Literal where
  names : List Bytes
  tokens : ∀ name ∈ names, IsToken name

namespace Literal

-- An InvalidArgumentException is a `none`.
def normalize (name : Bytes) : Option Bytes :=
  let name := strtolower (trim name)
  if name = [] ∨ hasSpace name then none else some name

theorem isToken_of_normalize {name token : Bytes} (h : normalize name = some token) :
    IsToken token := by
  unfold normalize at h
  dsimp only at h
  split_ifs at h with hbad
  cases h
  rw [not_or, Bool.not_eq_true] at hbad
  exact ⟨hbad.1, hbad.2, by rw [trim_strtolower, trim_trim], strtolower_idem _⟩

def normalizeAliases (name : Bytes) (normalized : List Bytes) : List Bytes → Option (List Bytes)
  | [] => some normalized
  | first :: aliases => do
    let first ← normalize first
    if first = name ∨ first ∈ normalized then normalizeAliases name normalized aliases
    else normalizeAliases name (normalized ++ [first]) aliases

theorem isToken_of_normalizeAliases {name : Bytes} {normalized aliases result : List Bytes}
    (hnormalized : ∀ token ∈ normalized, IsToken token)
    (h : normalizeAliases name normalized aliases = some result) :
    ∀ token ∈ result, IsToken token := by
  induction aliases generalizing normalized with
  | nil =>
    cases h
    exact hnormalized
  | cons first aliases ih =>
    rw [normalizeAliases, Option.bind_eq_bind, Option.bind_eq_some_iff] at h
    obtain ⟨token, htoken, h⟩ := h
    split_ifs at h
    · exact ih hnormalized h
    · refine ih (fun other hother => ?_) h
      rcases List.mem_append.mp hother with hold | hnew
      · exact hnormalized other hold
      · rw [List.mem_singleton.mp hnew]
        exact isToken_of_normalize htoken

def new (name : Bytes) (aliases : List Bytes) : Option Literal :=
  match hname : normalize name with
  | none => none
  | some name =>
    match haliases : normalizeAliases name [] aliases with
    | none => none
    | some aliases => some ⟨name :: aliases, List.forall_mem_cons.mpr
        ⟨isToken_of_normalize hname, isToken_of_normalizeAliases (List.forall_mem_nil _) haliases⟩⟩

end Literal

def Literal.matches (names : List Bytes) (token : Bytes) : Bool := strtolower token ∈ names

structure Command (S V : Type) where
  input : Bytes
  source : S
  arguments : OrderedMap Bytes V

def Command.argument {S V : Type} (command : Command S V) (name : Bytes) : Except CommandError V :=
  match command.arguments.get? name with
  | some value => .ok value
  | none => .error (.other (text "command argument is unavailable: " ++ name))

-- A provider may yield values that are not strings; those stand as `none`.
abbrev SuggestionProvider (S V : Type) := Command S V → Bytes → List (Option Bytes)

inductive NodeKind (S V : Type) where
  | literal (names : List Bytes)
  | argument (name : Bytes) (type : ArgumentType V) (provider : Option (SuggestionProvider S V))

-- What reflection says about a handler's parameter; only a named type has a name.
structure Parameter where
  name : Bytes
  variadic : Bool
  type : Option Bytes
  builtin : Bool

structure Handler (S V R : Type) where
  parameters : List Parameter
  run : List (Command S V ⊕ V) → Except CommandError R

inductive Node (S V R : Type) where
  | mk (kind : NodeKind S V) (children : List (Node S V R)) (handler : Option (Handler S V R))
    (requirements : List (Command S V → Bool))

def Node.kind {S V R : Type} : Node S V R → NodeKind S V
  | .mk kind _ _ _ => kind

inductive CompiledNode (S V R : Type) where
  | mk (node : NodeKind S V) (children : List (CompiledNode S V R))
    (invoke : Option (Command S V → Except CommandError R))
    (requirements : List (Command S V → Bool))

namespace CompiledNode

variable {S V R : Type}

def node : CompiledNode S V R → NodeKind S V
  | .mk node _ _ _ => node

def children : CompiledNode S V R → List (CompiledNode S V R)
  | .mk _ children _ _ => children

def invoke : CompiledNode S V R → Option (Command S V → Except CommandError R)
  | .mk _ _ invoke _ => invoke

def requirements : CompiledNode S V R → List (Command S V → Bool)
  | .mk _ _ _ requirements => requirements

end CompiledNode

inductive DefinitionProblem where
  | rootTaken (name : Bytes)
  | duplicateArgument (name : Bytes)
  | greedyChildren (name : Bytes)
  | duplicateLiteral (name : Bytes)
  | ambiguousArguments (first second : Bytes)
  | variadicHandler
  | unnamedType (parameter : Bytes)
  | unknownArgument (parameter : Bytes)
  | typeMismatch (argument produced expected : Bytes)
deriving DecidableEq, Repr

def DefinitionProblem.message : DefinitionProblem → Bytes
  | .rootTaken name => text "command root is already registered: " ++ name
  | .duplicateArgument name => text "duplicate command argument: " ++ name
  | .greedyChildren name => text "greedy argument <" ++ name ++ text "> cannot have children"
  | .duplicateLiteral name => text "duplicate sibling literal or alias: " ++ name
  | .ambiguousArguments first second =>
    text "ambiguous argument siblings <" ++ first ++ text "> and <" ++ second ++ text ">"
  | .variadicHandler => text "command handlers cannot be variadic"
  | .unnamedType parameter =>
    text "handler parameter $" ++ parameter ++ text " must have one named type"
  | .unknownArgument parameter =>
    text "handler parameter $" ++ parameter ++ text " has no command argument"
  | .typeMismatch argument produced expected => text "argument <" ++ argument ++ text "> produces " ++
    produced ++ text ", handler expects " ++ expected

section Compile

variable {S V R : Type}

def validateLiterals (seen : List Bytes) : List Bytes → Except DefinitionProblem (List Bytes)
  | [] => .ok seen
  | name :: names =>
    if name ∈ seen then .error (.duplicateLiteral name) else validateLiterals (seen ++ [name]) names

def validateChildren (literalNames : List Bytes) (argument : Option Bytes) :
    List (NodeKind S V) → Except DefinitionProblem Unit
  | [] => .ok ()
  | .literal names :: children => do
    let literalNames ← validateLiterals literalNames names
    validateChildren literalNames argument children
  | .argument name _ _ :: children =>
    match argument with
    | some first => .error (.ambiguousArguments first name)
    | none => validateChildren literalNames (some name) children

-- `isA` is the class hierarchy.
def parameterAccepts (isA : Bytes → Bytes → Bool) (type : Bytes) (builtin : Bool)
    (produced : Bytes) : Bool :=
  if builtin then type = produced else type = produced || isA produced type

def commandClass : Bytes := text "Cobblestone\\Command\\Command"

-- One entry a parameter: `none` takes the command itself, a name takes that argument.
def planHandler (isA : Bytes → Bytes → Bool) (argumentTypes : OrderedMap Bytes Bytes) :
    List Parameter → Except DefinitionProblem (List (Option Bytes))
  | [] => .ok []
  | parameter :: parameters => do
    if parameter.variadic then throw .variadicHandler
    let entry ←
      match parameter.type with
      | none => throw (.unnamedType parameter.name)
      | some type =>
        if type = commandClass then pure none
        else
          match argumentTypes.get? parameter.name with
          | none => throw (.unknownArgument parameter.name)
          | some produced =>
            if parameterAccepts isA type parameter.builtin produced then pure (some parameter.name)
            else throw (.typeMismatch parameter.name produced type)
    let plan ← planHandler isA argumentTypes parameters
    pure (entry :: plan)

def runPlan (handler : Handler S V R) (plan : List (Option Bytes)) (command : Command S V) :
    Except CommandError R := do
  let values ← plan.mapM fun entry =>
    match entry with
    | none => pure (Sum.inl command)
    | some name => Sum.inr <$> command.argument name
  handler.run values

def compileHandler (isA : Bytes → Bytes → Bool) (argumentTypes : OrderedMap Bytes Bytes)
    (handler : Handler S V R) : Except DefinitionProblem (Command S V → Except CommandError R) := do
  let plan ← planHandler isA argumentTypes handler.parameters
  pure (runPlan handler plan)

def checkArgument (argumentTypes : OrderedMap Bytes Bytes) (hasChildren : Bool) :
    NodeKind S V → Except DefinitionProblem (OrderedMap Bytes Bytes)
  | .literal _ => .ok argumentTypes
  | .argument name type _ =>
    if (argumentTypes.get? name).isSome then .error (.duplicateArgument name)
    else if type.consumesRemaining ∧ hasChildren then .error (.greedyChildren name)
    else .ok (argumentTypes.set name type.valueType)

mutual

def compile (isA : Bytes → Bytes → Bool) (argumentTypes : OrderedMap Bytes Bytes) :
    Node S V R → Except DefinitionProblem (CompiledNode S V R)
  | .mk kind children handler requirements => do
    let argumentTypes ← checkArgument argumentTypes (!children.isEmpty) kind
    validateChildren [] none (children.map Node.kind)
    let compiled ← compileAll isA argumentTypes children
    let invoke ← handler.mapM (compileHandler isA argumentTypes)
    pure (.mk kind compiled invoke requirements)

def compileAll (isA : Bytes → Bytes → Bool) (argumentTypes : OrderedMap Bytes Bytes) :
    List (Node S V R) → Except DefinitionProblem (List (CompiledNode S V R))
  | [] => pure []
  | child :: children => do
    let compiled ← compile isA argumentTypes child
    let rest ← compileAll isA argumentTypes children
    pure (compiled :: rest)

end

end Compile

structure Registration (S V R : Type) where
  root : CompiledNode S V R
  names : List Bytes

structure CommandTree (S V R : Type) where
  registrations : OrderedMap Nat (Registration S V R)
  roots : OrderedMap ArrayKey Nat
  nextBindingId : Nat

-- A literal with what was put under it.
structure Root (S V R : Type) where
  literal : Literal
  children : List (Node S V R)
  handler : Option (Handler S V R)
  requirements : List (Command S V → Bool)

def Root.node {S V R : Type} (root : Root S V R) : Node S V R :=
  .mk (.literal root.literal.names) root.children root.handler root.requirements

namespace CommandTree

variable {S V R : Type}

def new : CommandTree S V R := ⟨.empty, .empty, 1⟩

def register (isA : Bytes → Bytes → Bool) (tree : CommandTree S V R) (root : Root S V R) :
    Except DefinitionProblem Nat × CommandTree S V R :=
  let names := root.literal.names
  match names.find? fun name => (tree.roots.get? (keyOf name)).isSome with
  | some name => (.error (.rootTaken name), tree)
  | none =>
    match compile isA .empty root.node with
    | .error problem => (.error problem, tree)
    | .ok compiled =>
      let id := tree.nextBindingId
      (.ok id,
        { registrations := tree.registrations.set id ⟨compiled, names⟩
          roots := tree.roots.setAll id (names.map keyOf)
          nextBindingId := id + 1 })

def remove (tree : CommandTree S V R) (id : Nat) : Bool × CommandTree S V R :=
  match tree.registrations.get? id with
  | none => (false, tree)
  | some registration =>
    (true, { tree with
      registrations := tree.registrations.unset id
      roots := tree.roots.unsetHeld id (registration.names.map keyOf) })

def lookup (tree : CommandTree S V R) (rootToken : Bytes) : Option (CompiledNode S V R) := do
  let id ← tree.roots.get? (keyOf rootToken)
  let registration ← tree.registrations.get? id
  registration.root

end CommandTree

def normalizeInput (input : Bytes) : Bytes :=
  let input := trim input
  if input.head? = some slash then ltrim input.tail else input

namespace CompiledNode

variable {S V R : Type}

def requirementsPass (node : CompiledNode S V R) (command : Command S V) : Bool :=
  node.requirements.all (· command)

def literalChild (node : CompiledNode S V R) (token : Bytes) : Option (CompiledNode S V R) :=
  node.children.find? fun child =>
    match child.node with
    | .literal names => Literal.matches names token
    | .argument _ _ _ => false

def argumentChild (node : CompiledNode S V R) : Option (CompiledNode S V R × Bytes × ArgumentType V) :=
  node.children.findSome? fun child =>
    match child.node with
    | .literal _ => none
    | .argument name type _ => some (child, name, type)

variable {node child : CompiledNode S V R}

theorem literalChild_mem {token : Bytes} (h : node.literalChild token = some child) :
    child ∈ node.children :=
  List.mem_of_find?_eq_some h

theorem literalChild_not_argument {token name : Bytes} {type : ArgumentType V}
    {provider : Option (SuggestionProvider S V)} (h : node.literalChild token = some child) :
    child.node ≠ .argument name type provider := by
  intro hkind
  have hfound := List.find?_some h
  rw [hkind] at hfound
  cases hfound

theorem argumentChild_mem {name : Bytes} {type : ArgumentType V}
    (h : node.argumentChild = some (child, name, type)) :
    child ∈ node.children ∧ ∃ provider, child.node = .argument name type provider := by
  obtain ⟨found, hfound, hkind⟩ := List.exists_of_findSome?_eq_some h
  split at hkind
  · cases hkind
  · next hnode =>
    cases hkind
    exact ⟨hfound, _, hnode⟩

theorem sizeOf_lt_of_mem (h : child ∈ node.children) : sizeOf child < sizeOf node := by
  obtain ⟨kind, children, invoke, requirements⟩ := node
  have hlt := List.sizeOf_lt_of_mem h
  simp only [mk.sizeOf_spec, CompiledNode.children] at hlt ⊢
  omega

end CompiledNode

section Execute

variable {S V R : Type}

-- One level of executeFrom(): the literals first, then the argument child.
def descend (node : CompiledNode S V R) (reader : CommandReader) (arguments : OrderedMap Bytes V) :
    Except CommandError (CompiledNode S V R × CommandReader × OrderedMap Bytes V) :=
  match reader.readWord with
  | .error error => .error error
  | .ok (token, literalProbe) =>
    match node.literalChild token with
    | some child => .ok (child, literalProbe, arguments)
    | none =>
      match node.argumentChild with
      | none => .error (.parse (.unexpectedToken token) reader.cursor)
      | some (child, name, type) =>
        match type.parse reader with
        | .error error => .error error
        | .ok (value, argumentReader) => .ok (child, argumentReader, arguments.set name value)

theorem descend_cases {node child : CompiledNode S V R} {reader rest : CommandReader}
    {arguments next : OrderedMap Bytes V} (h : descend node reader arguments = .ok (child, rest, next)) :
    ∃ token probe, reader.readWord = .ok (token, probe) ∧
      ((node.literalChild token = some child ∧ rest = probe ∧ next = arguments) ∨
        (node.literalChild token = none ∧ ∃ name type value,
          node.argumentChild = some (child, name, type) ∧ type.parse reader = .ok (value, rest) ∧
            next = arguments.set name value)) := by
  unfold descend at h
  split at h
  · cases h
  next token probe hread =>
  refine ⟨token, probe, hread, ?_⟩
  split at h
  · next hliteral =>
    cases h
    exact .inl ⟨hliteral, rfl, rfl⟩
  next hliteral =>
  split at h
  · cases h
  next hargument =>
  split at h
  · cases h
  next hparse =>
  cases h
  exact .inr ⟨hliteral, _, _, _, hargument, hparse, rfl⟩

theorem descend_mem {node child : CompiledNode S V R} {reader rest : CommandReader}
    {arguments next : OrderedMap Bytes V} (h : descend node reader arguments = .ok (child, rest, next)) :
    child ∈ node.children := by
  obtain ⟨token, probe, -, ⟨hliteral, -⟩ | ⟨-, _, _, _, hargument, -⟩⟩ := descend_cases h
  · exact CompiledNode.literalChild_mem hliteral
  · exact (CompiledNode.argumentChild_mem hargument).1

def executeFrom (input : Bytes) (source : S) (node : CompiledNode S V R) (reader : CommandReader)
    (arguments : OrderedMap Bytes V) : Except CommandError R :=
  if reader.atEnd then
    match node.invoke with
    | none => .error (.parse .incomplete reader.cursor)
    | some invoke => invoke ⟨input, source, arguments⟩
  else
    match _hdescend : descend node reader arguments with
    | .error error => .error error
    | .ok (child, rest, nextArguments) =>
      if child.requirementsPass ⟨input, source, nextArguments⟩ then
        executeFrom input source child rest nextArguments
      else .error (.requirement reader.cursor)
termination_by sizeOf node
decreasing_by exact CompiledNode.sizeOf_lt_of_mem (descend_mem ‹_›)

-- The registration that the first word of the input names, and the reader behind that word.
def CommandTree.resolve (tree : CommandTree S V R) (input : Bytes) :
    Except CommandError (Nat × CommandReader) :=
  if input = [] then .error (.parse .emptyInput 0)
  else
    match (CommandReader.new input).readWord with
    | .error error => .error error
    | .ok (token, reader) =>
      let rootToken := strtolower token
      match tree.roots.get? (keyOf rootToken) with
      | none => .error (.parse (.unknownCommand rootToken) 0)
      | some id => .ok (id, reader)

def CommandTree.execute (tree : CommandTree S V R) (input : Bytes) (source : S) :
    Except CommandError R :=
  let input := normalizeInput input
  match tree.resolve input with
  | .error error => .error error
  | .ok (id, reader) =>
    match tree.registrations.get? id with
    | none => .error .typeError
    | some registration =>
      if registration.root.requirementsPass ⟨input, source, .empty⟩ then
        executeFrom input source registration.root reader .empty
      else .error (.requirement 0)

end Execute

section Suggest

variable {S V R : Type}

-- Strings sort by their bytes.
def sortStrings (values : List Bytes) : List Bytes := values.mergeSort fun a b => decide (a ≤ b)

theorem sortStrings_perm (values : List Bytes) : (sortStrings values).Perm values :=
  List.mergeSort_perm values _

theorem sortStrings_sorted {values : List Bytes} (hnodup : values.Nodup) :
    (sortStrings values).Pairwise (· < ·) := by
  have hle : (sortStrings values).Pairwise fun a b => decide (a ≤ b) = true :=
    List.pairwise_mergeSort (fun a b c hab hbc => by
      rw [decide_eq_true_eq] at *
      exact List.le_trans hab hbc) (fun a b => by
      rw [Bool.or_eq_true, decide_eq_true_eq, decide_eq_true_eq]
      exact List.le_total a b) values
  have hne : (sortStrings values).Nodup := (sortStrings_perm values).nodup_iff.mpr hnodup
  refine (hle.and hne).imp fun ⟨hab, hne⟩ => ?_
  by_contra hlt
  exact hne (List.le_antisymm (of_decide_eq_true hab) (List.not_lt.mp hlt))

-- The keys come back as integers where the array made them so, and str_starts_with() takes strings.
def keyText : ArrayKey → Except CommandError Bytes
  | .int _ => .error .typeError
  | .str name => .ok name

def CommandTree.rootSuggestions (tree : CommandTree S V R) (word : Bytes) :
    Except CommandError (List Bytes) := do
  let names ← tree.roots.keys.mapM keyText
  pure (sortStrings (names.filter word.isPrefixOf))

def matchArgumentToken (token : Bytes) (arguments : OrderedMap Bytes V) :
    List (CompiledNode S V R) →
      Except CommandError (Option (CompiledNode S V R × OrderedMap Bytes V))
  | [] => .ok none
  | child :: children =>
    match child.node with
    | .literal _ => matchArgumentToken token arguments children
    | .argument name type _ =>
      if type.consumesRemaining then matchArgumentToken token arguments children
      else
        match type.parse (.new token) with
        | .error (.parse _ _) | .error (.requirement _) =>
          matchArgumentToken token arguments children
        | .error error => .error error
        | .ok (value, reader) =>
          if reader.atEnd then .ok (some (child, arguments.set name value))
          else matchArgumentToken token arguments children

def matchSuggestionToken (node : CompiledNode S V R) (token : Bytes)
    (arguments : OrderedMap Bytes V) :
    Except CommandError (Option (CompiledNode S V R × OrderedMap Bytes V)) :=
  match node.literalChild token with
  | some child => .ok (some (child, arguments))
  | none => matchArgumentToken token arguments node.children

def walkTokens (node : CompiledNode S V R) (arguments : OrderedMap Bytes V) :
    List Bytes → Except CommandError (Option (CompiledNode S V R × OrderedMap Bytes V))
  | [] => .ok (some (node, arguments))
  | token :: tokens =>
    match matchSuggestionToken node token arguments with
    | .error error => .error error
    | .ok none => .ok none
    | .ok (some (child, arguments)) => walkTokens child arguments tokens

-- What one child adds to the suggestions.
def childSuggestions (command : Command S V) (word : Bytes) (child : CompiledNode S V R) :
    List Bytes :=
  if child.requirementsPass command then
    match child.node with
    | .literal names => names.filter word.isPrefixOf
    | .argument _ type provider =>
      let values :=
        match provider with
        | none => (type.suggestions word).map some
        | some provider => provider command word
      values.filterMap fun value => value.filter fun value => word.isPrefixOf (strtolower value)
  else []

-- The root token and the complete tokens behind it, and the token still being typed.
def splitSuggestion (input : Bytes) : List Bytes × Bytes :=
  let parts := splitSpaces (trim input)
  if endsInSpace input then (parts, []) else (parts.dropLast, strtolower (parts.getLastD []))

def CommandTree.suggest (tree : CommandTree S V R) (input : Bytes) (source : S) :
    Except CommandError (List Bytes) :=
  let input := dropSlash (ltrim input)
  if input = [] ∨ ¬hasSpace input then tree.rootSuggestions (strtolower input)
  else if trim input = [] then tree.rootSuggestions []
  else
    let (parts, word) := splitSuggestion input
    match parts with
    | [] => tree.rootSuggestions word
    | first :: tokens =>
      let rootToken := strtolower first
      match tree.lookup rootToken with
      | none => tree.rootSuggestions rootToken
      | some root =>
        match walkTokens root .empty tokens with
        | .error error => .error error
        | .ok none => .ok []
        | .ok (some (node, arguments)) =>
          let command : Command S V := ⟨normalizeInput input, source, arguments⟩
          .ok (sortStrings (node.children.flatMap (childSuggestions command word)).eraseDups)

end Suggest

end Cobblestone.Commands
