import Cobblestone.Commands.Tree
import Cobblestone.Commands.Tokens

namespace Cobblestone.Commands

open Lib

inductive Event (S V R : Type) where
  | registered (id : Nat) (root : Root S V R)
  | removed (id : Nat)

section Roots

variable {S V R : Type}

-- The registrations that a history leaves standing.
def liveRoot : List (Event S V R) → Nat → Option (Root S V R)
  | [], _ => none
  | .registered id root :: log, id' => if id' = id then some root else liveRoot log id'
  | .removed id :: log, id' => if id' = id then none else liveRoot log id'

def Live (log : List (Event S V R)) (id : Nat) (name : Bytes) : Prop :=
  ∃ root, liveRoot log id = some root ∧ name ∈ root.literal.names

inductive Run (isA : Bytes → Bytes → Bool) : List (Event S V R) → CommandTree S V R → Prop where
  | start : Run isA [] .new
  | registers {log : List (Event S V R)} {tree : CommandTree S V R} (h : Run isA log tree)
      (root : Root S V R) {id : Nat} (hid : (tree.register isA root).1 = .ok id) :
      Run isA (.registered id root :: log) (tree.register isA root).2
  | refuses {log : List (Event S V R)} {tree : CommandTree S V R} (h : Run isA log tree)
      (root : Root S V R) {problem : DefinitionProblem}
      (hproblem : (tree.register isA root).1 = .error problem) :
      Run isA log (tree.register isA root).2
  | removes {log : List (Event S V R)} {tree : CommandTree S V R} (h : Run isA log tree) (id : Nat) :
      Run isA (if (tree.remove id).1 then .removed id :: log else log) (tree.remove id).2

-- The tables say what the history says.
structure Tabled (isA : Bytes → Bytes → Bool) (log : List (Event S V R))
    (tree : CommandTree S V R) : Prop where
  live : ∀ id root, liveRoot log id = some root → ∃ compiled, compile isA .empty root.node = .ok compiled ∧
    tree.registrations.get? id = some ⟨compiled, root.literal.names⟩
  gone : ∀ id, liveRoot log id = none → tree.registrations.get? id = none
  issued : ∀ id, (liveRoot log id).isSome → id < tree.nextBindingId
  owner : ∀ name id, tree.roots.get? (keyOf name) = some id ↔ Live log id name
  keyed : ∀ key id, tree.roots.get? key = some id → ∃ name, key = keyOf name

variable {isA : Bytes → Bytes → Bool} {log : List (Event S V R)} {tree : CommandTree S V R}

theorem tabled_new : Tabled isA ([] : List (Event S V R)) .new where
  live _ _ h := nomatch h
  gone _ _ := rfl
  issued _ h := nomatch h
  owner _ _ := ⟨nofun, fun ⟨_, h, _⟩ => nomatch h⟩
  keyed _ _ h := nomatch h

theorem register_cases (isA : Bytes → Bytes → Bool) (tree : CommandTree S V R) (root : Root S V R) :
    (∃ problem, tree.register isA root = (.error problem, tree)) ∨
      ∃ compiled, compile isA .empty root.node = .ok compiled ∧ (∀ name ∈ root.literal.names, tree.roots.get? (keyOf name) = none) ∧
        tree.register isA root = (.ok tree.nextBindingId,
          { registrations := tree.registrations.set tree.nextBindingId ⟨compiled, root.literal.names⟩
            roots := tree.roots.setAll tree.nextBindingId (root.literal.names.map keyOf)
            nextBindingId := tree.nextBindingId + 1 }) := by
  unfold CommandTree.register
  dsimp only
  split
  · exact .inl ⟨_, rfl⟩
  next hfree =>
  split
  · exact .inl ⟨_, rfl⟩
  next hcompile =>
    refine .inr ⟨_, hcompile, fun name hname => ?_, rfl⟩
    have hnone := List.find?_eq_none.mp hfree name hname
    rwa [Bool.not_eq_true, Option.isSome_eq_false_iff, Option.isNone_iff_eq_none] at hnone

theorem mem_map_keyOf {name : Bytes} {names : List Bytes} :
    keyOf name ∈ names.map keyOf ↔ name ∈ names :=
  List.mem_map_of_injective keyOf_injective

theorem Tabled.register (h : Tabled isA log tree) {root : Root S V R} {compiled : CompiledNode S V R}
    (hcompile : compile isA .empty root.node = .ok compiled)
    (hfree : ∀ name ∈ root.literal.names, tree.roots.get? (keyOf name) = none) :
    Tabled isA (.registered tree.nextBindingId root :: log)
      { registrations := tree.registrations.set tree.nextBindingId ⟨compiled, root.literal.names⟩
        roots := tree.roots.setAll tree.nextBindingId (root.literal.names.map keyOf)
        nextBindingId := tree.nextBindingId + 1 } where
  live id other hlive := by
    rw [liveRoot] at hlive
    dsimp only
    rw [OrderedMap.get?_set]
    split at hlive
    · next hid =>
      cases hlive
      exact ⟨compiled, hcompile, if_pos hid⟩
    · next hid =>
      rw [if_neg hid]
      exact h.live id other hlive
  gone id hgone := by
    rw [liveRoot] at hgone
    dsimp only
    rw [OrderedMap.get?_set]
    split at hgone
    · cases hgone
    · next hid =>
      rw [if_neg hid]
      exact h.gone id hgone
  issued id hlive := by
    rw [liveRoot] at hlive
    split at hlive
    · next hid => exact hid ▸ Nat.lt_succ_self _
    · exact (h.issued id hlive).trans (Nat.lt_succ_self _)
  owner name id := by
    simp only [OrderedMap.get?_setAll, mem_map_keyOf, Live, liveRoot]
    by_cases hname : name ∈ root.literal.names
    · rw [if_pos hname]
      constructor
      · rintro ⟨rfl⟩
        exact ⟨root, if_pos rfl, hname⟩
      · rintro ⟨other, hother, hmem⟩
        split at hother
        · next hid => rw [hid]
        · have howner := (h.owner name id).mpr ⟨other, hother, hmem⟩
          rw [hfree name hname] at howner
          cases howner
    · rw [if_neg hname, h.owner]
      constructor
      · rintro ⟨other, hother, hmem⟩
        have hid := h.issued id (by rw [hother]; rfl)
        exact ⟨other, by rw [if_neg hid.ne, hother], hmem⟩
      · rintro ⟨other, hother, hmem⟩
        split at hother
        · cases hother
          exact absurd hmem hname
        · exact ⟨other, hother, hmem⟩
  keyed key id hget := by
    rw [OrderedMap.get?_setAll] at hget
    split at hget
    · next hmem =>
      obtain ⟨name, -, rfl⟩ := List.mem_map.mp hmem
      exact ⟨name, rfl⟩
    · exact h.keyed key id hget

theorem Tabled.remove (h : Tabled isA log tree) (id : Nat) :
    Tabled isA (if (tree.remove id).1 then .removed id :: log else log) (tree.remove id).2 := by
  unfold CommandTree.remove
  cases hregistration : tree.registrations.get? id with
  | none => exact h
  | some registration =>
    obtain ⟨root, hroot, hroots⟩ : ∃ root, liveRoot log id = some root ∧
        root.literal.names = registration.names := by
      cases hlive : liveRoot log id with
      | none => exact nomatch hregistration.symm.trans (h.gone id hlive)
      | some root =>
        obtain ⟨compiled, -, hget⟩ := h.live id root hlive
        exact ⟨root, rfl, congrArg Registration.names (Option.some.inj (hget.symm.trans hregistration))⟩
    refine ⟨fun id' other hlive => ?_, fun id' hgone => ?_, fun id' hlive => ?_, fun name id' => ?_, fun key id' hget => ?_⟩
    · rw [if_pos rfl, liveRoot] at hlive
      dsimp only
      rw [OrderedMap.get?_unset]
      split at hlive
      · cases hlive
      · next hid =>
        rw [if_neg hid]
        exact h.live id' other hlive
    · rw [if_pos rfl, liveRoot] at hgone
      dsimp only
      rw [OrderedMap.get?_unset]
      split at hgone
      · next hid => rw [if_pos hid]
      · next hid =>
        rw [if_neg hid]
        exact h.gone id' hgone
    · rw [if_pos rfl, liveRoot] at hlive
      split at hlive
      · cases hlive
      · exact h.issued id' hlive
    · simp only [OrderedMap.get?_unsetHeld, mem_map_keyOf, if_true, Live, liveRoot, ← hroots]
      constructor
      · intro hget
        split at hget
        · cases hget
        next hkept =>
        obtain ⟨other, hother, hmem⟩ := (h.owner name id').mp hget
        have hid : id' ≠ id := by
          rintro rfl
          cases hroot.symm.trans hother
          exact hkept ⟨hmem, hget⟩
        exact ⟨other, by rw [if_neg hid, hother], hmem⟩
      · rintro ⟨other, hother, hmem⟩
        split at hother
        · cases hother
        next hid =>
        have hget := (h.owner name id').mpr ⟨other, hother, hmem⟩
        rw [if_neg, hget]
        rintro ⟨-, hheld⟩
        exact hid (Option.some.inj (hget.symm.trans hheld))
    · dsimp only at hget
      rw [OrderedMap.get?_unsetHeld] at hget
      split at hget
      · cases hget
      · exact h.keyed key id' hget

theorem Run.tabled (h : Run isA log tree) : Tabled isA log tree := by
  induction h with
  | start => exact tabled_new
  | @registers log tree h root id hid ih =>
    rcases register_cases isA tree root with ⟨problem, heq⟩ | ⟨compiled, hcompile, hfree, heq⟩
    · rw [heq] at hid
      cases hid
    · rw [heq] at hid ⊢
      cases hid
      exact ih.register hcompile hfree
  | @refuses log tree h root problem hproblem ih =>
    rcases register_cases isA tree root with ⟨problem, heq⟩ | ⟨compiled, hcompile, hfree, heq⟩
    · rwa [heq]
    · rw [heq] at hproblem
      cases hproblem
  | removes h id ih => exact ih.remove id

theorem IsToken.ltrim {name : Bytes} (h : IsToken name) : ltrim name = name := by
  obtain ⟨-, -, htrim, -⟩ := h
  rw [← htrim]
  exact ltrim_rtrim_ltrim name

theorem IsToken.rtrim {name : Bytes} (h : IsToken name) : rtrim name = name := by
  obtain ⟨-, -, htrim, -⟩ := h
  rw [← htrim]
  exact rtrim_rtrim (Commands.ltrim name)

theorem IsToken.normalizeInput {name : Bytes} (h : IsToken name) :
    normalizeInput (slash :: name) = name := by
  unfold Commands.normalizeInput
  rw [trim, ltrim_cons (by decide), rtrim_cons (by decide), h.rtrim]
  exact h.ltrim

theorem IsToken.readWord {name : Bytes} (h : IsToken name) :
    (CommandReader.new name).readWord = .ok (name, ⟨name.length, []⟩) := by
  have hread : CommandReader.readWord ⟨0, name ++ []⟩ = .ok (name, ⟨0 + name.length, []⟩) :=
    readWord_of_word 0 h.1 h.2.1 nofun
  rwa [List.append_nil, Nat.zero_add] at hread

theorem resolve_ok_iff {input : Bytes} {id : Nat} {reader : CommandReader} :
    tree.resolve input = .ok (id, reader) ↔
      ∃ token, (CommandReader.new input).readWord = .ok (token, reader) ∧
        tree.roots.get? (keyOf (strtolower token)) = some id := by
  unfold CommandTree.resolve
  split
  · next hempty =>
    subst hempty
    refine ⟨fun heq => ?_, fun hfound => ?_⟩
    · cases heq
    · obtain ⟨_, hread, -⟩ := hfound
      cases hread
  rcases (CommandReader.new input).readWord with error | ⟨token, rest⟩
  · refine ⟨fun heq => ?_, fun hfound => ?_⟩
    · cases heq
    · obtain ⟨_, hread, -⟩ := hfound
      cases hread
  · dsimp only
    cases hget : tree.roots.get? (keyOf (strtolower token)) with
    | none =>
      constructor
      · intro heq
        cases heq
      · rintro ⟨_, hread, hfound⟩
        cases hread
        cases hget.symm.trans hfound
    | some found =>
      constructor
      · intro heq
        cases heq
        exact ⟨token, rfl, hget⟩
      · rintro ⟨_, hread, hfound⟩
        cases hread
        rw [← Option.some.inj (hget.symm.trans hfound)]

theorem Tabled.live_unique (h : Tabled isA log tree) {id id' : Nat} {name : Bytes}
    (hid : Live log id name) (hid' : Live log id' name) : id = id' :=
  Option.some.inj (((h.owner name id).mpr hid).symm.trans ((h.owner name id').mpr hid'))

theorem Tabled.resolve_iff (h : Tabled isA log tree) (input : Bytes) (id : Nat) :
    (∃ reader, tree.resolve input = .ok (id, reader)) ↔
      ∃ token reader, (CommandReader.new input).readWord = .ok (token, reader) ∧
        Live log id (strtolower token) := by
  simp only [resolve_ok_iff, h.owner]
  exact exists_comm

-- What execute() does with a name: it runs the tree that was registered under it.
theorem Tabled.execute_name (h : Tabled isA log tree) {id : Nat} {root : Root S V R} {name : Bytes}
    (hlive : liveRoot log id = some root) (hname : name ∈ root.literal.names) :
    ∃ compiled, compile isA .empty root.node = .ok compiled ∧
      ∀ source, tree.execute (slash :: name) source =
        if compiled.requirementsPass ⟨name, source, .empty⟩ then
          executeFrom name source compiled ⟨name.length, []⟩ .empty
        else .error (.requirement 0) := by
  have htoken := root.literal.tokens name hname
  obtain ⟨compiled, hcompile, hget⟩ := h.live id root hlive
  refine ⟨compiled, hcompile, fun source => ?_⟩
  have hresolve : tree.resolve name = .ok (id, ⟨name.length, []⟩) := by
    refine resolve_ok_iff.mpr ⟨name, htoken.readWord, ?_⟩
    rw [htoken.2.2.2]
    exact (h.owner name id).mpr ⟨root, hlive, hname⟩
  unfold CommandTree.execute
  dsimp only
  rw [htoken.normalizeInput, hresolve]
  dsimp only
  rw [hget]

end Roots

section Suggestions

variable {S V R : Type} {isA : Bytes → Bytes → Bool} {log : List (Event S V R)}
  {tree : CommandTree S V R}

theorem mapM_keyText_ok {keys : List ArrayKey} {names : List Bytes} :
    keys.mapM keyText = .ok names ↔ keys = names.map ArrayKey.str := by
  induction keys generalizing names with
  | nil => cases names <;> simp [pure, Except.pure]
  | cons key keys ih =>
    rw [List.mapM_cons]
    cases key with
    | int n => cases names <;> simp [keyText, bind, Except.bind]
    | str text =>
      cases hkeys : keys.mapM keyText with
      | error error =>
        simp only [keyText, bind, Except.bind, reduceCtorEq, false_iff]
        intro heq
        cases names with
        | nil => cases heq
        | cons name names =>
          have htail := ih.mpr (List.cons.inj heq).2
          exact nomatch hkeys.symm.trans htail
      | ok found =>
        rw [ih.mp hkeys]
        cases names with
        | nil => simp [keyText, bind, Except.bind, pure, Except.pure]
        | cons name names =>
          simp only [keyText, bind, Except.bind, pure, Except.pure, Except.ok.injEq, List.cons.injEq,
            List.map_cons, ArrayKey.str.injEq]
          rw [List.map_inj_right fun _ _ => ArrayKey.str.inj]

theorem suggest_word (tree : CommandTree S V R) {word : Bytes} (hword : hasSpace word = false)
    (source : S) : tree.suggest (slash :: word) source = tree.rootSuggestions (strtolower word) := by
  unfold CommandTree.suggest
  dsimp only
  rw [ltrim_cons (by decide), dropSlash_slash, if_pos (.inr (by simp [hword]))]

-- The root names in order, and no others, for the prefix as typed in any case.
def Suggests (log : List (Event S V R)) (word : Bytes) (values : List Bytes) : Prop :=
  values.Pairwise (· < ·) ∧
    ∀ value, value ∈ values ↔ strtolower word <+: value ∧ ∃ id, Live log id value

theorem Tabled.mem_keys (h : Tabled isA log tree) {key : ArrayKey} :
    key ∈ tree.roots.keys ↔ ∃ name, key = keyOf name ∧ ∃ id, Live log id name := by
  rw [OrderedMap.mem_keys, Option.isSome_iff_exists]
  constructor
  · rintro ⟨id, hget⟩
    obtain ⟨name, rfl⟩ := h.keyed key id hget
    exact ⟨name, rfl, id, (h.owner name id).mp hget⟩
  · rintro ⟨name, rfl, id, hlive⟩
    exact ⟨id, (h.owner name id).mpr hlive⟩

theorem Tabled.mem_names (h : Tabled isA log tree) {names : List Bytes}
    (hkeys : tree.roots.keys = names.map ArrayKey.str) {value : Bytes} :
    value ∈ names ↔ ∃ id, Live log id value := by
  constructor
  · intro hvalue
    have hkey : ArrayKey.str value ∈ tree.roots.keys := hkeys ▸ List.mem_map_of_mem hvalue
    obtain ⟨name, hname, hlive⟩ := h.mem_keys.mp hkey
    rwa [eq_of_keyOf_eq_str hname.symm]
  · intro hlive
    have hkey := h.mem_keys.mpr ⟨value, rfl, hlive⟩
    rw [hkeys] at hkey
    obtain ⟨name, hname, heq⟩ := List.mem_map.mp hkey
    rwa [← eq_of_keyOf_eq_str heq.symm]

theorem Tabled.rootSuggestions_iff (h : Tabled isA log tree) (word : Bytes) :
    (∃ values, tree.rootSuggestions (strtolower word) = .ok values ∧ Suggests log word values) ↔
      ∀ id name, Live log id name → (keyOf name).isInt = false := by
  constructor
  · rintro ⟨values, hvalues, -⟩ id name hlive
    unfold CommandTree.rootSuggestions at hvalues
    cases hnames : tree.roots.keys.mapM keyText with
    | error error =>
      rw [hnames] at hvalues
      cases hvalues
    | ok names =>
      have hmem := h.mem_keys.mpr ⟨name, rfl, id, hlive⟩
      rw [mapM_keyText_ok.mp hnames] at hmem
      obtain ⟨text, -, htext⟩ := List.mem_map.mp hmem
      rw [← htext]
      rfl
  · intro hstr
    have hkeys : ∀ key ∈ tree.roots.keys, key.isInt = false := by
      intro key hkey
      obtain ⟨name, rfl, id, hlive⟩ := h.mem_keys.mp hkey
      exact hstr id name hlive
    obtain ⟨names, hnames⟩ := exists_names_of_not_isInt hkeys
    have hnodup : names.Nodup := .of_map _ (hnames ▸ tree.roots.keys_nodup)
    refine ⟨sortStrings (names.filter (strtolower word).isPrefixOf), ?_, ?_, fun value => ?_⟩
    · rw [CommandTree.rootSuggestions, mapM_keyText_ok.mpr hnames]
      rfl
    · exact sortStrings_sorted (hnodup.filter _)
    · rw [(sortStrings_perm _).mem_iff, List.mem_filter, h.mem_names hnames, List.isPrefixOf_iff_prefix,
        and_comm]

end Suggestions

theorem root_table_by_history {S V R : Type} {isA : Bytes → Bytes → Bool} {log : List (Event S V R)}
    {tree : CommandTree S V R} (h : Run isA log tree) :
    (∀ input id, (∃ reader, tree.resolve input = .ok (id, reader)) ↔
      ∃ token reader, (CommandReader.new input).readWord = .ok (token, reader) ∧
        Live log id (strtolower token)) ∧
    (∀ id root name, liveRoot log id = some root → name ∈ root.literal.names →
      ∃ compiled, compile isA .empty root.node = .ok compiled ∧
        ∀ source, tree.execute (slash :: name) source =
          if compiled.requirementsPass ⟨name, source, .empty⟩ then
            executeFrom name source compiled ⟨name.length, []⟩ .empty
          else .error (.requirement 0)) ∧
    (∀ id id' name, Live log id name → Live log id' name → id = id') ∧
    (∀ root problem, (tree.register isA root).1 = .error problem →
      (tree.register isA root).2 = tree) ∧
    ∀ word source, hasSpace word = false →
      ((∃ values, tree.suggest (slash :: word) source = .ok values ∧ Suggests log word values) ↔
        ∀ id name, Live log id name → (keyOf name).isInt = false) := by
  have htabled := h.tabled
  refine ⟨htabled.resolve_iff, fun id root name => htabled.execute_name,
    fun id id' name => htabled.live_unique, fun root problem hproblem => ?_,
    fun word source hword => ?_⟩
  · rcases register_cases isA tree root with ⟨_, heq⟩ | ⟨_, _, _, heq⟩
    · rw [heq]
    · rw [heq] at hproblem
      cases hproblem
  · rw [suggest_word tree hword source]
    exact htabled.rootSuggestions_iff word

def one : Bytes := [49]

theorem one_isToken : IsToken one := by
  refine ⟨by decide, by decide, by decide, by decide⟩

def numberRoot : Root Unit Unit Unit where
  literal := ⟨[one], by simpa using one_isToken⟩
  children := []
  handler := none
  requirements := []

def numberTree : CommandTree Unit Unit Unit := (CommandTree.new.register (fun _ _ => false) numberRoot).2

theorem numberTree_run : Run (fun _ _ => false) [.registered 1 numberRoot] numberTree :=
  .registers .start numberRoot (by rfl)

theorem number_resolves : ∃ reader, numberTree.resolve one = .ok (1, reader) :=
  ((root_table_by_history numberTree_run).1 one 1).mpr
    ⟨one, ⟨1, []⟩, by rfl, numberRoot, by rfl, List.mem_singleton.mpr (by decide)⟩

-- The name "1" is a valid literal, and no completion of a root word survives it.
theorem number_root_breaks_suggestions :
    Run (fun _ _ => false) [.registered 1 numberRoot] numberTree ∧
      numberTree.suggest [slash] () = .error .typeError ∧
      ¬∃ values, numberTree.suggest [slash] () = .ok values ∧
        Suggests [.registered 1 numberRoot] [] values := by
  have herror : numberTree.suggest [slash] () = .error .typeError := by rfl
  refine ⟨numberTree_run, herror, ?_⟩
  rintro ⟨values, hvalues, -⟩
  rw [herror] at hvalues
  cases hvalues

end Cobblestone.Commands
