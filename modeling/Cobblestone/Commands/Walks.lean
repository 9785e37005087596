import Cobblestone.Commands.Requirements
import Cobblestone.Commands.Tokens

namespace Cobblestone.Commands

open Lib

inductive CompiledNode.Plain {S V R : Type} : CompiledNode S V R → Prop where
  | mk {node : CompiledNode S V R}
    (single : ∀ first second, first ∈ node.children → second ∈ node.children →
      ∀ name type provider name' type' provider', first.node = .argument name type provider →
        second.node = .argument name' type' provider' → first = second)
    (types : ∀ child ∈ node.children, ∀ name type provider, child.node = .argument name type provider →
      type.consumesRemaining = false → type.ReadsTokens)
    (children : ∀ child ∈ node.children, child.Plain) : node.Plain

section Walk

variable {S V R : Type}

-- The descent of executeFrom(), without its checks and its handler.
def walkReader (node : CompiledNode S V R) (reader : CommandReader) (arguments : OrderedMap Bytes V) :
    Except CommandError (CompiledNode S V R × OrderedMap Bytes V) :=
  if reader.atEnd then .ok (node, arguments)
  else
    match _hdescend : descend node reader arguments with
    | .error error => .error error
    | .ok (child, rest, nextArguments) => walkReader child rest nextArguments
termination_by sizeOf node
decreasing_by exact CompiledNode.sizeOf_lt_of_mem (descend_mem ‹_›)

variable {node child last : CompiledNode S V R} {reader rest : CommandReader}
  {arguments next final : OrderedMap Bytes V}

theorem walkReader_here (hend : reader.atEnd = true) :
    walkReader node reader arguments = .ok (node, arguments) := by
  rw [walkReader, if_pos hend]

theorem walkReader_through (hend : reader.atEnd = false)
    (hdescend : descend node reader arguments = .ok (child, rest, next)) :
    walkReader node reader arguments = walkReader child rest next := by
  rw [walkReader, if_neg (by simp [hend])]
  split
  · next heq => exact nomatch hdescend.symm.trans heq
  · next heq =>
    cases hdescend.symm.trans heq
    rfl

-- The whole call selects a handler where this walk ends, if every node lets it pass.
theorem walkReader_of_selectFrom {input : Bytes} {source : S} {selection : Selection S V R}
    (h : selectFrom input source node reader arguments = .ok selection) :
    walkReader node reader arguments =
      .ok (lastNode node selection.path, lastArguments arguments selection.path) := by
  fun_induction selectFrom input source node reader arguments generalizing selection with
  | case1 => cases h
  | case2 node reader arguments hend invoke hinvoke =>
    cases h
    exact walkReader_here hend
  | case3 => cases h
  | case4 node reader arguments hend child rest next hdescend hpass ih =>
    obtain ⟨found, hfound, rfl⟩ := map_ok h
    rw [walkReader_through (by simpa using hend) hdescend]
    exact ih hfound
  | case5 => cases h

-- Every step takes one token, and no argument takes all that is left.
inductive TokenWalk : CompiledNode S V R → CommandReader → OrderedMap Bytes V → CompiledNode S V R →
    OrderedMap Bytes V → Prop where
  | here {node : CompiledNode S V R} {reader : CommandReader} {arguments : OrderedMap Bytes V}
    (hend : reader.atEnd = true) : TokenWalk node reader arguments node arguments
  | through {node child last : CompiledNode S V R} {reader probe rest : CommandReader}
    {arguments next final : OrderedMap Bytes V} {token : Bytes} (hend : reader.atEnd = false)
    (hdescend : descend node reader arguments = .ok (child, rest, next))
    (hread : reader.readWord = .ok (token, probe)) (hrest : rest.rest = probe.rest)
    (hbounded : ∀ name type provider, child.node = .argument name type provider →
      type.consumesRemaining = false)
    (h : TokenWalk child rest next last final) : TokenWalk node reader arguments last final

theorem TokenWalk.walkReader (h : TokenWalk node reader arguments last final) :
    walkReader node reader arguments = .ok (last, final) := by
  induction h with
  | here hend => exact walkReader_here hend
  | through hend hdescend _ _ _ _ ih => rw [walkReader_through hend hdescend, ih]

theorem matchArgumentToken_cases {token : Bytes} {children : List (CompiledNode S V R)}
    (h : matchArgumentToken token arguments children = .ok (some (child, next))) :
    child ∈ children ∧ ∃ name type provider value after,
      child.node = .argument name type provider ∧ type.consumesRemaining = false ∧
        type.parse (.new token) = .ok (value, after) ∧ after.atEnd = true ∧
        next = arguments.set name value := by
  fun_induction matchArgumentToken token arguments children with
  | case1 => cases h
  | case2 child' children names hnode ih =>
    obtain ⟨hmem, hrest⟩ := ih h
    exact ⟨List.mem_cons_of_mem _ hmem, hrest⟩
  | case3 child' children name type provider hnode hgreedy ih =>
    obtain ⟨hmem, hrest⟩ := ih h
    exact ⟨List.mem_cons_of_mem _ hmem, hrest⟩
  | case4 child' children name type provider hnode hgreedy problem cursor hparse ih =>
    obtain ⟨hmem, hrest⟩ := ih h
    exact ⟨List.mem_cons_of_mem _ hmem, hrest⟩
  | case5 child' children name type provider hnode hgreedy cursor hparse ih =>
    obtain ⟨hmem, hrest⟩ := ih h
    exact ⟨List.mem_cons_of_mem _ hmem, hrest⟩
  | case6 => cases h
  | case7 child' children name type provider hnode hgreedy value after hparse hend =>
    cases h
    exact ⟨List.mem_cons_self, name, type, provider, value, after, hnode, by simpa using hgreedy, hparse,
      hend, rfl⟩
  | case8 child' children name type provider hnode hgreedy value after hparse hend ih =>
    obtain ⟨hmem, hrest⟩ := ih h
    exact ⟨List.mem_cons_of_mem _ hmem, hrest⟩

theorem matchArgumentToken_of_only {token name : Bytes} {type : ArgumentType V}
    {provider : Option (SuggestionProvider S V)} {value : V} {after : CommandReader}
    {children : List (CompiledNode S V R)}
    (honly : ∀ other ∈ children, ∀ name type provider, other.node = .argument name type provider →
      other = child)
    (hmem : child ∈ children) (hnode : child.node = .argument name type provider)
    (hgreedy : type.consumesRemaining = false) (hparse : type.parse (.new token) = .ok (value, after))
    (hend : after.atEnd = true) :
    matchArgumentToken token arguments children = .ok (some (child, arguments.set name value)) := by
  induction children with
  | nil => exact absurd hmem List.not_mem_nil
  | cons first children ih =>
    rw [List.forall_mem_cons] at honly
    rw [matchArgumentToken]
    split
    · next names hfirst =>
      refine ih honly.2 ((List.mem_cons.mp hmem).resolve_left ?_)
      rintro rfl
      cases hnode.symm.trans hfirst
    · next name' type' provider' hfirst =>
      obtain rfl := honly.1 name' type' provider' hfirst
      cases hnode.symm.trans hfirst
      rw [if_neg (by simp [hgreedy]), hparse]
      exact if_pos hend

theorem argumentChild_of_mem {name : Bytes} {type : ArgumentType V}
    {provider : Option (SuggestionProvider S V)} (hplain : node.Plain) (hmem : child ∈ node.children)
    (hnode : child.node = .argument name type provider) :
    node.argumentChild = some (child, name, type) := by
  obtain ⟨single, -, -⟩ := hplain
  cases hfound : node.argumentChild with
  | none =>
    have hnone := List.findSome?_eq_none_iff.mp hfound child hmem
    simp [hnode] at hnone
  | some found =>
    obtain ⟨other, name', type'⟩ := found
    obtain ⟨hother, provider', hkind⟩ := CompiledNode.argumentChild_mem hfound
    obtain rfl := single _ _ hother hmem _ _ _ _ _ _ hkind hnode
    cases hkind.symm.trans hnode
    rfl

theorem walkTokens_of_tokenWalk (hplain : node.Plain)
    (h : TokenWalk node reader arguments last final) :
    walkTokens node arguments (splitSpaces reader.rest) = .ok (some (last, final)) := by
  induction h with
  | @here node reader arguments hend =>
    rcases atEnd_or_atWord reader with ⟨-, hsplit⟩ | ⟨hnot, -⟩
    · rw [hsplit]
      rfl
    · exact nomatch hend.symm.trans hnot
  | @through node child last reader probe rest arguments next final token hend hdescend hread hrest
      hbounded h ih =>
    obtain ⟨hsingle, htypes, hchildren⟩ := hplain
    rcases atEnd_or_atWord reader with ⟨hnot, -⟩ | ⟨-, spaces, word, behind, hword⟩
    · exact nomatch hend.symm.trans hnot
    have hchild := hchildren child (descend_mem hdescend)
    cases hread.symm.trans hword.readWord
    have hih := ih hchild
    rw [hrest] at hih
    rw [hword.splitSpaces, walkTokens]
    suffices hmatch : matchSuggestionToken node token arguments = .ok (some (child, next)) by
      rw [hmatch]
      exact hih
    unfold matchSuggestionToken
    obtain ⟨_, _, hread', hcases⟩ := descend_cases hdescend
    cases hread'.symm.trans hword.readWord
    rcases hcases with ⟨hliteral, -, rfl⟩ | ⟨hliteral, name, type, value, hargument, hparse, rfl⟩
    · rw [hliteral]
    · rw [hliteral]
      obtain ⟨hmem, provider, hnode⟩ := CompiledNode.argumentChild_mem hargument
      have hgreedy := hbounded name type provider hnode
      obtain ⟨after, halone, hafter⟩ :=
        (htypes child hmem name type provider hnode hgreedy).alone hword hparse hrest
      refine matchArgumentToken_of_only (fun other hother name' type' provider' hkind => ?_) hmem hnode
        hgreedy halone hafter
      exact hsingle _ _ hother hmem _ _ _ _ _ _ hkind hnode

theorem tokenWalk_of_walkTokens {tokens : List Bytes} (hplain : node.Plain)
    (htokens : splitSpaces reader.rest = tokens)
    (h : walkTokens node arguments tokens = .ok (some (last, final))) :
    TokenWalk node reader arguments last final := by
  induction tokens generalizing node reader arguments with
  | nil =>
    cases h
    rcases atEnd_or_atWord reader with ⟨hend, -⟩ | ⟨-, _, _, _, hword⟩
    · exact .here hend
    · exact nomatch hword.splitSpaces.symm.trans htokens
  | cons token tokens ih =>
    rcases atEnd_or_atWord reader with ⟨-, hsplit⟩ | ⟨hend, spaces, word, behind, hword⟩
    · exact nomatch hsplit.symm.trans htokens
    obtain ⟨rfl, rfl⟩ := List.cons.inj (hword.splitSpaces.symm.trans htokens)
    rw [walkTokens] at h
    split at h
    · cases h
    · cases h
    next child next hmatch =>
    have hplain' := hplain
    obtain ⟨hsingle, htypes, hchildren⟩ := hplain
    have hchild := hchildren child (matchSuggestionToken_mem hmatch)
    unfold matchSuggestionToken at hmatch
    cases hliteral : node.literalChild word with
    | some found =>
      rw [hliteral] at hmatch
      cases hmatch
      have hdescend : descend node reader arguments =
          .ok (child, ⟨reader.cursor + spaces.length + word.length, behind⟩, arguments) := by
        rw [descend, hword.readWord]
        dsimp only
        rw [hliteral]
      refine .through hend hdescend hword.readWord rfl ?_ (ih hchild rfl h)
      exact fun name type provider hkind =>
        absurd hkind (CompiledNode.literalChild_not_argument hliteral)
    | none =>
      rw [hliteral] at hmatch
      obtain ⟨hmem, name, type, provider, value, after, hnode, hgreedy, hparse, hafter, rfl⟩ :=
        matchArgumentToken_cases hmatch
      obtain ⟨behind', hinside, hrest⟩ :=
        (htypes child hmem name type provider hnode hgreedy).inside hword hparse hafter
      have hdescend : descend node reader arguments =
          .ok (child, behind', arguments.set name value) := by
        rw [descend, hword.readWord]
        dsimp only
        rw [hliteral]
        dsimp only
        rw [argumentChild_of_mem hplain' hmem hnode]
        dsimp only
        rw [hinside]
      refine .through hend hdescend hword.readWord hrest ?_ (ih hchild (congrArg _ hrest) h)
      intro name' type' provider' hkind
      cases hnode.symm.trans hkind
      exact hgreedy

end Walk

end Cobblestone.Commands
