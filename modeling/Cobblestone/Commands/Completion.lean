import Cobblestone.Lib.Result
import Cobblestone.Commands.Roots
import Cobblestone.Commands.Walks

namespace Cobblestone.Commands

open Lib

section Compiled

variable {S V R : Type}

-- Every argument type in the tree that does not take all the rest reads its text token by token.
inductive Node.Reads : Node S V R → Prop where
  | mk {kind : NodeKind S V} {children : List (Node S V R)} {handler : Option (Handler S V R)}
    {requirements : List (Command S V → Bool)}
    (own : ∀ name type provider, kind = .argument name type provider →
      type.consumesRemaining = false → type.ReadsTokens)
    (below : ∀ child ∈ children, child.Reads) : (Node.mk kind children handler requirements).Reads

def NodeKind.isArgument : NodeKind S V → Bool
  | .literal _ => false
  | .argument _ _ _ => true

theorem validateChildren_single {names : List Bytes} {first : Option Bytes}
    {kinds : List (NodeKind S V)} (h : validateChildren names first kinds = .ok ()) :
    (kinds.filter NodeKind.isArgument).length ≤ if first.isSome then 0 else 1 := by
  induction kinds generalizing names first with
  | nil => exact Nat.zero_le _
  | cons kind kinds ih =>
    cases kind with
    | literal literals =>
      rw [validateChildren] at h
      rcases hliterals : validateLiterals names literals with problem | names'
      · rw [hliterals] at h
        cases h
      · rw [hliterals] at h
        exact ih h
    | argument name type provider =>
      cases first with
      | some first => cases h
      | none =>
        have hrest := ih h
        rw [List.filter_cons_of_pos rfl, List.length_cons]
        simpa using hrest

theorem filter_eq_of_length_le_one {α : Type} {p : α → Bool} {values : List α}
    (h : (values.filter p).length ≤ 1) {a b : α} (ha : a ∈ values) (hb : b ∈ values) (hpa : p a = true)
    (hpb : p b = true) : a = b := by
  have hma := List.mem_filter.mpr ⟨ha, hpa⟩
  have hmb := List.mem_filter.mpr ⟨hb, hpb⟩
  obtain ⟨c, hc⟩ | hnil : (∃ c, values.filter p = [c]) ∨ values.filter p = [] := by
    cases hlist : values.filter p with
    | nil => exact .inr rfl
    | cons c rest =>
      rw [hlist, List.length_cons] at h
      exact .inl ⟨c, by rw [List.length_eq_zero_iff.mp (by omega : rest.length = 0)]⟩
  · rw [hc, List.mem_singleton] at hma hmb
    exact hma.trans hmb.symm
  · rw [hnil] at hma
    exact absurd hma List.not_mem_nil

variable {isA : Bytes → Bytes → Bool}

mutual

theorem compile_plain {types : OrderedMap Bytes Bytes} :
    ∀ {node : Node S V R} {compiled : CompiledNode S V R}, node.Reads →
      compile isA types node = .ok compiled → compiled.node = node.kind ∧ compiled.Plain
  | .mk kind children handler requirements, compiled, hreads, h => by
    obtain ⟨-, hbelow⟩ := hreads
    rw [compile, bind_ok_iff] at h
    obtain ⟨types', -, h⟩ := h
    rw [bind_ok_iff] at h
    obtain ⟨_, hvalid, h⟩ := h
    rw [bind_ok_iff] at h
    obtain ⟨nodes, hnodes, h⟩ := h
    rw [bind_ok_iff] at h
    obtain ⟨invoke, -, h⟩ := h
    cases h
    obtain ⟨hkinds, htypes, hplain⟩ := compileAll_plain hbelow hnodes
    refine ⟨rfl, .mk ?_ htypes hplain⟩
    have hsingle := validateChildren_single hvalid
    rw [← hkinds, List.filter_map, List.length_map] at hsingle
    intro first second hfirst hsecond name type provider name' type' provider' hkind hkind'
    refine filter_eq_of_length_le_one hsingle hfirst hsecond ?_ ?_
    · rw [Function.comp_apply, hkind]
      rfl
    · rw [Function.comp_apply, hkind']
      rfl

theorem compileAll_plain {types : OrderedMap Bytes Bytes} :
    ∀ {nodes : List (Node S V R)} {compiled : List (CompiledNode S V R)},
      (∀ node ∈ nodes, node.Reads) → compileAll isA types nodes = .ok compiled →
        compiled.map CompiledNode.node = nodes.map Node.kind ∧
          (∀ child ∈ compiled, ∀ name type provider, child.node = .argument name type provider →
            type.consumesRemaining = false → type.ReadsTokens) ∧
          ∀ child ∈ compiled, child.Plain
  | [], compiled, _, h => by
    cases h
    exact ⟨rfl, nofun, nofun⟩
  | node :: nodes, compiled, hreads, h => by
    rw [List.forall_mem_cons] at hreads
    rw [compileAll, bind_ok_iff] at h
    obtain ⟨first, hfirst, h⟩ := h
    rw [bind_ok_iff] at h
    obtain ⟨rest, hrest, h⟩ := h
    cases h
    obtain ⟨hkind, hplain⟩ := compile_plain hreads.1 hfirst
    obtain ⟨hkinds, htypes, hplains⟩ := compileAll_plain hreads.2 hrest
    refine ⟨?_, List.forall_mem_cons.mpr ⟨?_, htypes⟩, List.forall_mem_cons.mpr ⟨hplain, hplains⟩⟩
    · rw [List.map_cons, List.map_cons, hkind, hkinds]
    · obtain ⟨own, -⟩ := hreads.1
      rw [hkind]
      exact own

end

end Compiled

section Normalized

theorem rtrim_cons_trimmed {char : UInt8} (h : isTrimmed char = true) (rest : Bytes) :
    rtrim (char :: rest) = if rtrim rest = [] then [] else char :: rtrim rest := by
  rw [rtrim_eq, rtrim_eq, ltrim, ltrim, List.reverse_cons, List.dropWhile_append]
  cases hrest : rest.reverse.dropWhile isTrimmed with
  | nil => simp [h]
  | cons last others => simp

theorem ltrim_rtrim (text : Bytes) : ltrim (rtrim text) = rtrim (ltrim text) := by
  induction text with
  | nil => rfl
  | cons char rest ih =>
    cases hchar : isTrimmed char with
    | true =>
      rw [rtrim_cons_trimmed hchar, ltrim, ltrim, List.dropWhile_cons_of_pos hchar, ← ltrim, ← ltrim, ← ih]
      split
      · next hempty => rw [hempty]
      · rw [ltrim, List.dropWhile_cons_of_pos hchar, ← ltrim]
    | false => rw [rtrim_cons hchar, ltrim_cons hchar, ltrim_cons hchar, rtrim_cons hchar]

-- execute() and suggest() strip the input in different orders, to the same text.
theorem trim_dropSlash (input : Bytes) : trim (dropSlash (ltrim input)) = normalizeInput input := by
  unfold normalizeInput
  dsimp only
  rw [trim, trim]
  cases hinput : ltrim input with
  | nil => rfl
  | cons char rest =>
    have hchar := head_ltrim hinput
    rw [rtrim_cons hchar, dropSlash, List.head?_cons, List.head?_cons]
    split
    · rw [List.tail_cons, List.tail_cons, ltrim_rtrim]
    · rw [ltrim_cons hchar, rtrim_cons hchar]

end Normalized

section Paths

variable {S V R : Type}

namespace CommandTree

-- Where the walk of execute() over the whole input ends.
def executeWalk (tree : CommandTree S V R) (input : Bytes) :
    Except CommandError (CompiledNode S V R × OrderedMap Bytes V) :=
  match tree.resolve (normalizeInput input) with
  | .error error => .error error
  | .ok (id, reader) =>
    match tree.registrations.get? id with
    | none => .error .typeError
    | some registration => walkReader registration.root reader .empty

-- Where the walk of suggest() over its complete tokens ends.
def suggestWalk (tree : CommandTree S V R) (input : Bytes) :
    Except CommandError (Option (CompiledNode S V R × OrderedMap Bytes V)) :=
  match (splitSuggestion (dropSlash (ltrim input))).1 with
  | [] => .ok none
  | first :: tokens =>
    match tree.lookup (strtolower first) with
    | none => .ok none
    | some root => walkTokens root .empty tokens

-- The walk of execute(), when every argument on the way takes one token and none all the rest.
def TokenPath (tree : CommandTree S V R) (input : Bytes) (last : CompiledNode S V R)
    (final : OrderedMap Bytes V) : Prop :=
  ∃ id reader registration, tree.resolve (normalizeInput input) = .ok (id, reader) ∧
    tree.registrations.get? id = some registration ∧
    TokenWalk registration.root reader .empty last final

variable {tree : CommandTree S V R} {input : Bytes} {last : CompiledNode S V R}
  {final : OrderedMap Bytes V}

theorem TokenPath.executeWalk (h : tree.TokenPath input last final) :
    tree.executeWalk input = .ok (last, final) := by
  obtain ⟨id, reader, registration, hresolve, hget, hwalk⟩ := h
  unfold CommandTree.executeWalk
  rw [hresolve]
  dsimp only
  rw [hget]
  exact hwalk.walkReader

-- Completion goes on from the node its walk reaches.
theorem suggest_of_suggestWalk (hspace : endsInSpace (dropSlash (ltrim input)) = true)
    (h : tree.suggestWalk input = .ok (some (last, final))) (source : S) :
    tree.suggest input source = .ok (sortStrings (last.children.flatMap
      (childSuggestions (suggestionCommand input source final) [])).eraseDups) := by
  unfold suggestWalk at h
  have hword : (splitSuggestion (dropSlash (ltrim input))).2 = [] := by
    rw [splitSuggestion, if_pos hspace]
  rcases hsplit : splitSuggestion (dropSlash (ltrim input)) with ⟨_ | ⟨first, tokens⟩, word⟩
  · rw [hsplit] at h
    cases h
  rw [hsplit] at h hword
  dsimp only at h hword
  cases hlookup : tree.lookup (strtolower first) with
  | none =>
    rw [hlookup] at h
    cases h
  | some root =>
    rw [hlookup] at h
    obtain ⟨path, hwalked⟩ := walkTokens_ok.mp h
    have hcompletes : Completes tree input root path last final [] := by
      refine ⟨hasSpace_of_endsInSpace hspace, fun hempty => ?_, first, tokens, ?_, hlookup, hwalked⟩
      · rw [splitSuggestion, if_pos hspace, hempty] at hsplit
        cases hsplit
      · rw [hsplit, hword]
    exact hcompletes.suggest source

end CommandTree

variable {isA : Bytes → Bytes → Bool} {log : List (Event S V R)} {tree : CommandTree S V R}

theorem Tabled.root_plain (h : Tabled isA log tree)
    (hreads : ∀ id root, liveRoot log id = some root → root.node.Reads) {id : Nat}
    {registration : Registration S V R} (hget : tree.registrations.get? id = some registration) :
    registration.root.Plain := by
  cases hlive : liveRoot log id with
  | none => exact nomatch hget.symm.trans (h.gone id hlive)
  | some root =>
    obtain ⟨compiled, hcompile, hget'⟩ := h.live id root hlive
    cases hget.symm.trans hget'
    exact (compile_plain (hreads id root hlive) hcompile).2

theorem lookup_some {rootToken : Bytes} {root : CompiledNode S V R} :
    tree.lookup rootToken = some root ↔ ∃ id, tree.roots.get? (keyOf rootToken) = some id ∧
      ∃ registration, tree.registrations.get? id = some registration ∧ registration.root = root := by
  simp only [CommandTree.lookup, Option.bind_eq_bind, Option.bind_eq_some_iff, Option.some.injEq]

theorem splitSuggestion_of_endsInSpace {input : Bytes}
    (hspace : endsInSpace (dropSlash (ltrim input)) = true) :
    splitSuggestion (dropSlash (ltrim input)) = (splitSpaces (normalizeInput input), []) := by
  rw [splitSuggestion, if_pos hspace, trim_dropSlash]

theorem Tabled.suggestWalk_iff (h : Tabled isA log tree)
    (hreads : ∀ id root, liveRoot log id = some root → root.node.Reads) {input : Bytes}
    (hspace : endsInSpace (dropSlash (ltrim input)) = true) (last : CompiledNode S V R)
    (final : OrderedMap Bytes V) :
    tree.suggestWalk input = .ok (some (last, final)) ↔ tree.TokenPath input last final := by
  unfold CommandTree.suggestWalk CommandTree.TokenPath
  rw [splitSuggestion_of_endsInSpace hspace]
  dsimp only
  simp only [resolve_ok_iff]
  rcases atEnd_or_atWord (.new (normalizeInput input)) with ⟨hend, hsplit⟩ | ⟨hend, spaces, word, rest, hword⟩
  · rw [show splitSpaces (normalizeInput input) = [] from hsplit]
    obtain ⟨cursor, herror⟩ := readWord_of_atEnd hend
    constructor
    · intro hwalk
      cases hwalk
    · rintro ⟨id, reader, registration, ⟨token, hread, -⟩, -⟩
      cases herror.symm.trans hread
  rw [show splitSpaces (normalizeInput input) = _ from hword.splitSpaces]
  dsimp only
  constructor
  · intro hwalk
    cases hlookup : tree.lookup (strtolower word) with
    | none =>
      rw [hlookup] at hwalk
      cases hwalk
    | some root =>
      rw [hlookup] at hwalk
      obtain ⟨id, hroot, registration, hget, rfl⟩ := lookup_some.mp hlookup
      exact ⟨id, _, registration, ⟨word, hword.readWord, hroot⟩, hget,
        tokenWalk_of_walkTokens (h.root_plain hreads hget) rfl hwalk⟩
  · rintro ⟨id, reader, registration, ⟨token, hread, hroot⟩, hget, hwalk⟩
    cases hread.symm.trans hword.readWord
    rw [lookup_some.mpr ⟨id, hroot, registration, hget, rfl⟩]
    exact walkTokens_of_tokenWalk (h.root_plain hreads hget) hwalk

end Paths

theorem completion_follows_tokens {S V R : Type} {isA : Bytes → Bytes → Bool}
    {log : List (Event S V R)} {tree : CommandTree S V R} (h : Run isA log tree)
    (hreads : ∀ id root, liveRoot log id = some root → root.node.Reads) (input : Bytes)
    (hspace : endsInSpace (dropSlash (ltrim input)) = true) (last : CompiledNode S V R)
    (final : OrderedMap Bytes V) :
    (tree.suggestWalk input = .ok (some (last, final)) →
      tree.executeWalk input = .ok (last, final)) ∧
    (tree.TokenPath input last final → tree.executeWalk input = .ok (last, final) ∧
      tree.suggestWalk input = .ok (some (last, final))) := by
  have hiff := h.tabled.suggestWalk_iff hreads hspace last final
  exact ⟨fun hsuggest => (hiff.mp hsuggest).executeWalk,
    fun hpath => ⟨hpath.executeWalk, hiff.mpr hpath⟩⟩

abbrev TextNode := Node Unit Bytes Unit

def textArgument : TextNode := .mk (.argument [116] (StringArgumentType id .string) none) [] none []

def greedyArgument : TextNode := .mk (.argument [109] (StringArgumentType id .greedy) none) [] none []

-- s <t>, and s g <m>
def sayRoot : Root Unit Bytes Unit where
  literal := ⟨[[115]], by
    rintro name hname
    rw [List.mem_singleton.mp hname]
    refine ⟨by decide, by decide, by decide, by decide⟩⟩
  children := [textArgument, .mk (.literal [[103]]) [greedyArgument] none []]
  handler := none
  requirements := []

def sayTree : CommandTree Unit Bytes Unit := (CommandTree.new.register (fun _ _ => false) sayRoot).2

theorem sayTree_run : Run (fun _ _ => false) [.registered 1 sayRoot] sayTree :=
  .registers .start sayRoot (by rfl)

theorem argument_reads {name : Bytes} {mode : StringMode} :
    (Node.mk (.argument name (StringArgumentType id mode) none) [] none [] : TextNode).Reads := by
  refine .mk (fun _ _ _ hkind hbounded => ?_) nofun
  cases hkind
  exact StringArgumentType_readsTokens id hbounded

theorem sayRoot_reads : sayRoot.node.Reads := by
  refine .mk nofun ?_
  intro child hchild
  rcases List.mem_cons.mp hchild with rfl | hchild
  · exact argument_reads
  · rw [List.mem_singleton.mp hchild]
    refine .mk nofun fun child hchild => ?_
    rw [List.mem_singleton.mp hchild]
    exact argument_reads

def textNode : CompiledNode Unit Bytes Unit :=
  .mk (.argument [116] (StringArgumentType id .string) none) [] none []

def greedyNode : CompiledNode Unit Bytes Unit :=
  .mk (.argument [109] (StringArgumentType id .greedy) none) [] none []

theorem sayTree_follows :
    sayTree.executeWalk [115, 32, 97, 32] = .ok (textNode, OrderedMap.empty.set [116] [97]) ∧
      sayTree.suggestWalk [115, 32, 97, 32] = .ok (some (textNode, OrderedMap.empty.set [116] [97])) := by
  refine (completion_follows_tokens sayTree_run (fun id root hlive => ?_) [115, 32, 97, 32] (by decide)
    textNode _).2 ⟨1, _, _, by rfl, by rfl, ?_⟩
  · rw [liveRoot] at hlive
    split at hlive
    · cases hlive
      exact sayRoot_reads
    · cases hlive
  · exact .through (by rfl) (by rfl) (by rfl) (by rfl) (fun _ _ _ hkind => by cases hkind; rfl)
      (.here (by rfl))

-- A greedy argument is where completion stops by design; a quoted space is where it loses the way.
theorem completion_loses_paths :
    (sayTree.executeWalk [115, 32, 103, 32, 97, 32] = .ok (greedyNode, OrderedMap.empty.set [109] [97]) ∧
      sayTree.suggestWalk [115, 32, 103, 32, 97, 32] = .ok none) ∧
    sayTree.executeWalk [115, 32, 34, 97, 32, 98, 34, 32] =
        .ok (textNode, OrderedMap.empty.set [116] [97, 32, 98]) ∧
      sayTree.suggestWalk [115, 32, 34, 97, 32, 98, 34, 32] = .ok none := by
  refine ⟨⟨?_, by rfl⟩, ?_, by rfl⟩
  · refine (walkReader_through (by rfl) (by rfl)).trans ?_
    refine (walkReader_through (by rfl) (by rfl)).trans ?_
    exact walkReader_here (by rfl)
  · refine (walkReader_through (by rfl) (by rfl)).trans ?_
    exact walkReader_here (by rfl)

end Cobblestone.Commands
