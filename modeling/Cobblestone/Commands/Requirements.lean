import Cobblestone.Commands.Tree

namespace Cobblestone.Commands

open Lib

variable {S V R : Type}

-- A node on the way down, with the arguments parsed when it was entered.
structure Visit (S V R : Type) where
  node : CompiledNode S V R
  arguments : OrderedMap Bytes V

def Visit.passes (visit : Visit S V R) (input : Bytes) (source : S) : Bool :=
  visit.node.requirementsPass ⟨input, source, visit.arguments⟩

def IsPath : CompiledNode S V R → List (Visit S V R) → Prop
  | _, [] => True
  | node, visit :: path => visit.node ∈ node.children ∧ IsPath visit.node path

def lastNode : CompiledNode S V R → List (Visit S V R) → CompiledNode S V R
  | node, [] => node
  | _, visit :: path => lastNode visit.node path

-- The call of a handler that executeFrom() is about to make, and the nodes it came through.
structure Selection (S V R : Type) where
  path : List (Visit S V R)
  invoke : Command S V → Except CommandError R
  command : Command S V

def Selection.through (visit : Visit S V R) (selection : Selection S V R) : Selection S V R :=
  { selection with path := visit :: selection.path }

def selectFrom (input : Bytes) (source : S) (node : CompiledNode S V R) (reader : CommandReader)
    (arguments : OrderedMap Bytes V) : Except CommandError (Selection S V R) :=
  if reader.atEnd then
    match node.invoke with
    | none => .error (.parse .incomplete reader.cursor)
    | some invoke => .ok ⟨[], invoke, ⟨input, source, arguments⟩⟩
  else
    match _hdescend : descend node reader arguments with
    | .error error => .error error
    | .ok (child, rest, nextArguments) =>
      if child.requirementsPass ⟨input, source, nextArguments⟩ then
        (selectFrom input source child rest nextArguments).map
          (Selection.through ⟨child, nextArguments⟩)
      else .error (.requirement reader.cursor)
termination_by sizeOf node
decreasing_by exact CompiledNode.sizeOf_lt_of_mem (descend_mem ‹_›)

def CommandTree.select (tree : CommandTree S V R) (input : Bytes) (source : S) :
    Except CommandError (Selection S V R) :=
  let input := normalizeInput input
  match tree.resolve input with
  | .error error => .error error
  | .ok (id, reader) =>
    match tree.registrations.get? id with
    | none => .error .typeError
    | some registration =>
      if registration.root.requirementsPass ⟨input, source, .empty⟩ then
        (selectFrom input source registration.root reader .empty).map
          (Selection.through ⟨registration.root, .empty⟩)
      else .error (.requirement 0)

def Selection.call (selection : Selection S V R) : Except CommandError R :=
  selection.invoke selection.command

variable {input : Bytes} {source : S} {node : CompiledNode S V R} {reader : CommandReader}
  {arguments : OrderedMap Bytes V} {selection : Selection S V R}

theorem bind_through (visit : Visit S V R) (selected : Except CommandError (Selection S V R)) :
    (selected.map (Selection.through visit)).bind Selection.call = selected.bind Selection.call := by
  cases selected <;> rfl

theorem executeFrom_eq (input : Bytes) (source : S) (node : CompiledNode S V R)
    (reader : CommandReader) (arguments : OrderedMap Bytes V) :
    executeFrom input source node reader arguments =
      (selectFrom input source node reader arguments).bind Selection.call := by
  fun_induction executeFrom input source node reader arguments with
  | case1 node reader arguments hend hinvoke =>
    rw [selectFrom, if_pos hend, hinvoke]
    rfl
  | case2 node reader arguments hend invoke hinvoke =>
    rw [selectFrom, if_pos hend, hinvoke]
    rfl
  | case3 node reader arguments hend error herror =>
    rw [selectFrom, if_neg hend]
    split <;> simp_all [Except.bind]
  | case4 node reader arguments hend child rest next hdescend hpass ih =>
    rw [selectFrom, if_neg hend]
    split
    · simp_all
    next heq =>
    rw [hdescend] at heq
    cases heq
    rw [if_pos hpass, bind_through, ih]
  | case5 node reader arguments hend child rest next hdescend hpass =>
    rw [selectFrom, if_neg hend]
    split <;> simp_all [Except.bind]

theorem CommandTree.execute_eq (tree : CommandTree S V R) (input : Bytes) (source : S) :
    tree.execute input source = (tree.select input source).bind Selection.call := by
  unfold CommandTree.execute CommandTree.select
  dsimp only
  rcases tree.resolve (normalizeInput input) with error | ⟨id, reader⟩
  · rfl
  dsimp only
  cases tree.registrations.get? id with
  | none => rfl
  | some registration =>
    dsimp only
    split
    · rw [bind_through, executeFrom_eq]
    · rfl

def lastArguments : OrderedMap Bytes V → List (Visit S V R) → OrderedMap Bytes V
  | arguments, [] => arguments
  | _, visit :: path => lastArguments visit.arguments path

-- A handler's call is guarded by every node on the way to it.
structure Selection.Guarded (selection : Selection S V R) (input : Bytes) (source : S)
    (node : CompiledNode S V R) (arguments : OrderedMap Bytes V) : Prop where
  path : IsPath node selection.path
  passes : ∀ visit ∈ selection.path, visit.passes input source = true
  invoke : (lastNode node selection.path).invoke = some selection.invoke
  command : selection.command = ⟨input, source, lastArguments arguments selection.path⟩

theorem Selection.Guarded.through {child : CompiledNode S V R} {next : OrderedMap Bytes V}
    (h : selection.Guarded input source child next) (hmem : child ∈ node.children)
    (hpass : child.requirementsPass ⟨input, source, next⟩ = true) :
    (selection.through ⟨child, next⟩).Guarded input source node arguments where
  path := ⟨hmem, h.path⟩
  passes := List.forall_mem_cons.mpr ⟨hpass, h.passes⟩
  invoke := h.invoke
  command := h.command

theorem map_ok {visit : Visit S V R} {selected : Except CommandError (Selection S V R)}
    (h : selected.map (Selection.through visit) = .ok selection) :
    ∃ found, selected = .ok found ∧ found.through visit = selection := by
  cases selected with
  | error error => cases h
  | ok found => exact ⟨found, rfl, Except.ok.inj h⟩

theorem selectFrom_guarded (h : selectFrom input source node reader arguments = .ok selection) :
    selection.Guarded input source node arguments := by
  fun_induction selectFrom input source node reader arguments generalizing selection with
  | case1 => cases h
  | case2 node reader arguments hend invoke hinvoke =>
    cases h
    exact ⟨trivial, nofun, hinvoke, rfl⟩
  | case3 => cases h
  | case4 node reader arguments hend child rest next hdescend hpass ih =>
    obtain ⟨found, hfound, rfl⟩ := map_ok h
    exact (ih hfound).through (descend_mem hdescend) hpass
  | case5 => cases h

-- The root of a registration is where every path starts.
theorem CommandTree.select_guarded {tree : CommandTree S V R}
    (h : tree.select input source = .ok selection) :
    ∃ id registration path, tree.registrations.get? id = some registration ∧
      selection.path = ⟨registration.root, .empty⟩ :: path ∧
      IsPath registration.root path ∧
      (∀ visit ∈ selection.path, visit.passes (normalizeInput input) source = true) ∧
      (lastNode registration.root path).invoke = some selection.invoke ∧
      selection.command = ⟨normalizeInput input, source, lastArguments .empty path⟩ := by
  unfold CommandTree.select at h
  dsimp only at h
  rcases hresolve : tree.resolve (normalizeInput input) with error | ⟨id, reader⟩
  · rw [hresolve] at h
    cases h
  rw [hresolve] at h
  dsimp only at h
  cases hget : tree.registrations.get? id with
  | none =>
    rw [hget] at h
    cases h
  | some registration =>
    rw [hget] at h
    dsimp only at h
    split at h
    · next hpass =>
      obtain ⟨found, hfound, rfl⟩ := map_ok h
      have hguarded := selectFrom_guarded hfound
      exact ⟨id, registration, found.path, hget, rfl, hguarded.path,
        List.forall_mem_cons.mpr ⟨hpass, hguarded.passes⟩, hguarded.invoke, hguarded.command⟩
    · cases h

section Suggest

-- The nodes that walkTokens() goes through.
inductive Walked : CompiledNode S V R → OrderedMap Bytes V → List Bytes → List (Visit S V R) →
    CompiledNode S V R → OrderedMap Bytes V → Prop where
  | here {node : CompiledNode S V R} {arguments : OrderedMap Bytes V} :
    Walked node arguments [] [] node arguments
  | through {node child last : CompiledNode S V R} {arguments next final : OrderedMap Bytes V}
      {token : Bytes} {tokens : List Bytes} {path : List (Visit S V R)}
      (hmatch : matchSuggestionToken node token arguments = .ok (some (child, next)))
      (h : Walked child next tokens path last final) :
    Walked node arguments (token :: tokens) (⟨child, next⟩ :: path) last final

theorem walkTokens_ok {tokens : List Bytes} {last : CompiledNode S V R}
    {final : OrderedMap Bytes V} :
    walkTokens node arguments tokens = .ok (some (last, final)) ↔
      ∃ path, Walked node arguments tokens path last final := by
  induction tokens generalizing node arguments with
  | nil =>
    constructor
    · intro h
      cases h
      exact ⟨[], .here⟩
    · rintro ⟨path, h⟩
      cases h
      rfl
  | cons token tokens ih =>
    rw [walkTokens]
    constructor
    · intro h
      split at h
      · cases h
      · cases h
      next hmatch =>
      obtain ⟨path, hwalked⟩ := ih.mp h
      exact ⟨_, .through hmatch hwalked⟩
    · rintro ⟨path, h⟩
      cases h with
      | through hmatch h =>
        rw [hmatch]
        exact ih.mpr ⟨_, h⟩

theorem matchArgumentToken_mem {token : Bytes} {children : List (CompiledNode S V R)}
    {child : CompiledNode S V R} {next : OrderedMap Bytes V}
    (h : matchArgumentToken token arguments children = .ok (some (child, next))) :
    child ∈ children := by
  fun_induction matchArgumentToken token arguments children <;>
    simp_all [List.mem_cons]

theorem matchSuggestionToken_mem {token : Bytes} {child : CompiledNode S V R}
    {next : OrderedMap Bytes V}
    (h : matchSuggestionToken node token arguments = .ok (some (child, next))) :
    child ∈ node.children := by
  unfold matchSuggestionToken at h
  split at h
  · next hliteral =>
    cases h
    exact CompiledNode.literalChild_mem hliteral
  · exact matchArgumentToken_mem h

theorem Walked.isPath {tokens : List Bytes} {path : List (Visit S V R)} {last : CompiledNode S V R}
    {final : OrderedMap Bytes V} (h : Walked node arguments tokens path last final) :
    IsPath node path ∧ lastNode node path = last ∧ lastArguments arguments path = final := by
  induction h with
  | here => exact ⟨trivial, rfl, rfl⟩
  | through hmatch h ih => exact ⟨⟨matchSuggestionToken_mem hmatch, ih.1⟩, ih.2.1, ih.2.2⟩

-- An input whose complete tokens lead to a node, with the token still being typed.
structure Completes (tree : CommandTree S V R) (input : Bytes) (root : CompiledNode S V R)
    (path : List (Visit S V R)) (node : CompiledNode S V R) (arguments : OrderedMap Bytes V)
    (word : Bytes) : Prop where
  spaced : hasSpace (dropSlash (ltrim input)) = true
  filled : trim (dropSlash (ltrim input)) ≠ []
  walked : ∃ first tokens, splitSuggestion (dropSlash (ltrim input)) = (first :: tokens, word) ∧
    tree.lookup (strtolower first) = some root ∧ Walked root .empty tokens path node arguments

variable {tree : CommandTree S V R} {root : CompiledNode S V R} {path : List (Visit S V R)}
  {word : Bytes}

def suggestionCommand (input : Bytes) (source : S) (arguments : OrderedMap Bytes V) : Command S V :=
  ⟨normalizeInput (dropSlash (ltrim input)), source, arguments⟩

theorem Completes.suggest (h : Completes tree input root path node arguments word) (source : S) :
    tree.suggest input source = .ok (sortStrings (node.children.flatMap
      (childSuggestions (suggestionCommand input source arguments) word)).eraseDups) := by
  obtain ⟨first, tokens, hsplit, hroot, hwalked⟩ := h.walked
  unfold CommandTree.suggest
  dsimp only
  rw [if_neg, if_neg h.filled, hsplit]
  · dsimp only
    rw [hroot]
    dsimp only
    rw [walkTokens_ok.mpr ⟨path, hwalked⟩]
    rfl
  · rw [not_or, not_not]
    refine ⟨fun hempty => h.filled ?_, h.spaced⟩
    rw [hempty]
    rfl

-- What a node's child contributes is shown only where every node on the way lets the source pass.
def GuardsChildren (tree : CommandTree S V R) (input : Bytes) (source : S) : Prop :=
  ∀ root path node arguments word, Completes tree input root path node arguments word →
    ∀ child ∈ node.children,
      ∀ value ∈ childSuggestions (suggestionCommand input source arguments) word child,
        (∀ visit ∈ (⟨root, .empty⟩ : Visit S V R) :: path,
          visit.passes (normalizeInput (dropSlash (ltrim input))) source = true) ∧
        child.requirementsPass (suggestionCommand input source arguments) = true

theorem passes_of_offers {command : Command S V} {child : CompiledNode S V R} {value : Bytes}
    (h : value ∈ childSuggestions command word child) : child.requirementsPass command = true := by
  unfold childSuggestions at h
  split at h
  · assumption
  · cases h

theorem guardsChildren_iff (tree : CommandTree S V R) (input : Bytes) (source : S) :
    GuardsChildren tree input source ↔
      ∀ root path node arguments word, Completes tree input root path node arguments word →
        (∃ child ∈ node.children,
          childSuggestions (suggestionCommand input source arguments) word child ≠ []) →
        ∀ visit ∈ (⟨root, .empty⟩ : Visit S V R) :: path,
          visit.passes (normalizeInput (dropSlash (ltrim input))) source = true := by
  constructor
  · rintro h root path node arguments word hcompletes ⟨child, hchild, hoffers⟩
    obtain ⟨value, hvalue⟩ := List.exists_mem_of_ne_nil _ hoffers
    exact (h root path node arguments word hcompletes child hchild value hvalue).1
  · intro h root path node arguments word hcompletes child hchild value hvalue
    exact ⟨h root path node arguments word hcompletes ⟨child, hchild, List.ne_nil_of_mem hvalue⟩,
      passes_of_offers hvalue⟩

end Suggest

theorem requirements_guard_branches (tree : CommandTree S V R) (input : Bytes) (source : S) :
    (tree.execute input source = (tree.select input source).bind Selection.call ∧
      ∀ selection, tree.select input source = .ok selection →
        ∃ id registration path, tree.registrations.get? id = some registration ∧
          selection.path = ⟨registration.root, .empty⟩ :: path ∧ IsPath registration.root path ∧
          (∀ visit ∈ selection.path, visit.passes (normalizeInput input) source = true) ∧
          (lastNode registration.root path).invoke = some selection.invoke ∧
          selection.command = ⟨normalizeInput input, source, lastArguments .empty path⟩) ∧
    (∀ root path node arguments word, Completes tree input root path node arguments word →
      IsPath root path ∧ lastNode root path = node ∧ lastArguments .empty path = arguments ∧
        ∃ values, tree.suggest input source = .ok values ∧ ∀ value, value ∈ values ↔
          ∃ child ∈ node.children,
            value ∈ childSuggestions (suggestionCommand input source arguments) word child) ∧
    (GuardsChildren tree input source ↔
      ∀ root path node arguments word, Completes tree input root path node arguments word →
        (∃ child ∈ node.children,
          childSuggestions (suggestionCommand input source arguments) word child ≠ []) →
        ∀ visit ∈ (⟨root, .empty⟩ : Visit S V R) :: path,
          visit.passes (normalizeInput (dropSlash (ltrim input))) source = true) := by
  refine ⟨⟨tree.execute_eq input source, fun selection => CommandTree.select_guarded⟩,
    fun root path node arguments word hcompletes => ?_, guardsChildren_iff tree input source⟩
  obtain ⟨_, _, _, _, hwalked⟩ := hcompletes.walked
  obtain ⟨hpath, hlast, hfinal⟩ := hwalked.isPath
  refine ⟨hpath, hlast, hfinal, _, hcompletes.suggest source, fun value => ?_⟩
  rw [(sortStrings_perm _).mem_iff, List.mem_eraseDups, List.mem_flatMap]

def adminRoot : Root Unit Unit Unit where
  literal := ⟨[[97]], by
    rintro name hname
    rw [List.mem_singleton.mp hname]
    refine ⟨by decide, by decide, by decide, by decide⟩⟩
  children := [.mk (.literal [[98]]) [] none []]
  handler := none
  requirements := [fun _ => false]

def adminTree : CommandTree Unit Unit Unit :=
  (CommandTree.new.register (fun _ _ => false) adminRoot).2

def adminNode : CompiledNode Unit Unit Unit :=
  .mk (.literal [[97]]) [.mk (.literal [[98]]) [] none []] none [fun _ => false]

theorem adminTree_completes : Completes adminTree [97, 32] adminNode [] adminNode .empty [] where
  spaced := by rfl
  filled := by decide
  walked := ⟨[97], [], by rfl, by rfl, .here⟩

-- "a" is closed to the source, and still "a " completes to its child "b".
theorem closed_branch_is_suggested :
    adminTree.execute [97, 32, 98] () = .error (.requirement 0) ∧
      adminTree.suggest [97, 32] () = .ok [[98]] ∧ ¬GuardsChildren adminTree [97, 32] () := by
  refine ⟨by rfl, ?_, fun h => ?_⟩
  · rw [adminTree_completes.suggest]
    exact congrArg Except.ok (List.mergeSort_singleton [98])
  · have hguard := h adminNode [] adminNode .empty [] adminTree_completes
      (.mk (.literal [[98]]) [] none []) List.mem_cons_self [98] (by decide)
    exact nomatch hguard.1 ⟨adminNode, .empty⟩ List.mem_cons_self

end Cobblestone.Commands
