import Cobblestone.Lib.Trace
import Cobblestone.Plugin.Plugins
import Cobblestone.Plugin.Drift

namespace Cobblestone.Plugin

open Lib

variable {r r' : Registries} {x : Registration} {g g' : Host} {w w' : Workspace}
  {logger : Logger} {callbacks : Nat → Nat → Script}

-- A scope is either open, with all it registered waiting in its cleanup list, or released for good.
structure ScopeState (r : Registries) (scope : PluginScope) : Prop where
  books : ScopeBooks r scope
  opened : scope.closed = false → Open scope
  released : scope.closed = true → Released r scope

structure ScopesBooks (g : Host) : Prop where
  scopes : ∀ (i : Nat) (s : PluginScope), g.scopes[i]? = some s → ScopeState g.registries s
  apart : ∀ (i j : Nat) (s t : PluginScope), i ≠ j → g.scopes[i]? = some s →
    g.scopes[j]? = some t → ∀ h ∈ s.handles, ∀ h' ∈ t.handles, h.target ≠ h'.target

structure Roster (g : Host) : Prop where
  loaded : ∀ (name : String) (i : Nat), g.plugins.get? name = some i →
    ∃ s : PluginScope, g.scopes[i]? = some s ∧ s.closed = false
  unique : ∀ (name name' : String) (i : Nat), g.plugins.get? name = some i →
    g.plugins.get? name' = some i → name = name'
  listed : ∀ (i : Nat) (s : PluginScope), g.scopes[i]? = some s → s.closed = false →
    ∃ name, g.plugins.get? name = some i

structure HostBooks (g : Host) : Prop extends ScopesBooks g, Roster g

theorem Released.drift {scope : PluginScope} (h : Released r scope) (hb : ScopeBooks r scope)
    (hd : Drifts r r') : Released r' scope := by
  have habsent : ∀ handle ∈ scope.handles, ¬r'.holds handle.target :=
    fun handle hm => hd.absent _ (hb.issued handle hm) (h.absent handle hm)
  exact ⟨h.closed, habsent, fun handle hm id ht => Registries.no_root (ht ▸ habsent handle hm),
    h.ran⟩

theorem ScopeState.drift {scope : PluginScope} (h : ScopeState r scope) (hd : Drifts r r') :
    ScopeState r' scope where
  books := ⟨fun handle hm => hd.issued _ (h.books.issued handle hm), fun handle hm hc =>
    hd.absent _ (h.books.issued handle hm) (h.books.gone handle hm hc)⟩
  opened := h.opened
  released hc := (h.released hc).drift h.books hd

theorem ScopeState.new (r : Registries) : ScopeState r .new :=
  ⟨⟨nofun, nofun⟩, fun _ => ⟨nofun, rfl, rfl⟩, nofun⟩

theorem ScopeState.act (h : ScopeState w.registries w.scope) (ha : Acts w w') :
    ScopeState w'.registries w'.scope := by
  have hbooks := ha.books h.books
  cases hc : w.scope.closed with
  | false =>
    obtain ⟨hc', ho⟩ := ha.opened hc
    exact ⟨hbooks, fun _ => ho (h.opened hc), fun hcl => (nomatch hc'.symm.trans hcl)⟩
  | true =>
    obtain ⟨hf, hran⟩ := ha.frozen hc
    have hr := h.released hc
    refine ⟨hbooks, fun hop => (nomatch hf.closed.symm.trans hop), fun _ => ?_⟩
    have hgone : ∀ handle ∈ w'.scope.handles, ¬w'.registries.holds handle.target := by
      intro handle hm
      obtain ⟨i, hi⟩ := List.mem_iff_getElem?.mp hm
      have hlt := (List.getElem?_eq_some_iff.mp hi).1
      rw [hf.length] at hlt
      have hget := List.getElem?_eq_getElem hlt
      have hmem := List.mem_of_getElem? hget
      obtain ⟨handle', hi', ht, -⟩ := ha.evolves.kept i _ hget
      cases hi.symm.trans hi'
      rw [ht]
      exact ha.evolves.drift.absent _ (h.books.issued _ hmem) (hr.absent _ hmem)
    exact ⟨hf.closed, hgone, fun h' hm id ht => Registries.no_root (ht ▸ hgone h' hm),
      by rw [hran, hf.callbacks, hr.ran]⟩

-- Foreign registrations are neither the scope's old ones nor among the new ones, which were not issued.
theorem Evolves.foreign (h : Evolves w w') (hissued : w.registries.issued x)
    (hown : ∀ handle ∈ w.scope.handles, handle.target ≠ x) :
    ∀ handle ∈ w'.scope.handles, handle.target ≠ x := by
  intro handle hm hx
  obtain ⟨i, hi⟩ := List.mem_iff_getElem?.mp hm
  by_cases hlt : i < w.scope.handles.length
  · have hget := List.getElem?_eq_getElem hlt
    obtain ⟨handle', hi', ht, -⟩ := h.kept i _ hget
    cases hi.symm.trans hi'
    exact hown _ (List.mem_of_getElem? hget) (ht ▸ hx)
  · exact h.fresh i handle (not_lt.mp hlt) hi (hx ▸ hissued)

theorem Evolves.untouched (h : Evolves w w') (hissued : w.registries.issued x)
    (hown : ∀ handle ∈ w.scope.handles, handle.target ≠ x) :
    w.registries.untouched w'.registries x :=
  h.others x (h.foreign hissued hown)

theorem workspace_eq {i : Nat} {s : PluginScope} (hi : g.scopes[i]? = some s) :
    g.workspace i = ⟨g.registries, s⟩ := by
  rw [Host.workspace, List.getD_eq_getElem?_getD, hi, Option.getD_some]

theorem put_scopes {i j : Nat} {t : PluginScope} (hj : (g.put i w').scopes[j]? = some t) :
    j = i ∧ t = w'.scope ∨ j ≠ i ∧ g.scopes[j]? = some t := by
  rw [Host.put, List.getElem?_set] at hj
  split_ifs at hj with hij hlt
  · cases hj
    exact .inl ⟨hij.symm, rfl⟩
  · exact .inr ⟨Ne.symm hij, hj⟩

theorem put_scopes_self {i : Nat} {s : PluginScope} (hi : g.scopes[i]? = some s) :
    (g.put i w').scopes[i]? = some w'.scope := by
  have hlt := (List.getElem?_eq_some_iff.mp hi).1
  rw [Host.put, List.getElem?_set, if_pos rfl, if_pos hlt]

theorem put_scopes_other {i j : Nat} (hne : j ≠ i) : (g.put i w').scopes[j]? = g.scopes[j]? := by
  rw [Host.put, List.getElem?_set, if_neg (Ne.symm hne)]

theorem ScopesBooks.put {i : Nat} {s : PluginScope} (h : ScopesBooks g)
    (hi : g.scopes[i]? = some s) (he : Evolves ⟨g.registries, s⟩ w')
    (hs : ScopeState w'.registries w'.scope) : ScopesBooks (g.put i w') := by
  have hforeign : ∀ (j : Nat) (t : PluginScope), j ≠ i → g.scopes[j]? = some t → ∀ h' ∈ t.handles,
      ∀ handle ∈ w'.scope.handles, handle.target ≠ h'.target := by
    intro j t hne hj h' hm
    exact he.foreign ((h.scopes j t hj).books.issued h' hm) fun handle hmem =>
      h.apart i j s t (Ne.symm hne) hi hj handle hmem h' hm
  refine ⟨?_, ?_⟩
  · intro j t hj
    rcases put_scopes hj with ⟨-, rfl⟩ | ⟨-, hold⟩
    · exact hs
    · exact (h.scopes j t hold).drift he.drift
  · intro j k t u hne hj hk handle hm h' hm'
    rcases put_scopes hj with ⟨hji, rfl⟩ | ⟨hji, hold⟩
    · rcases put_scopes hk with ⟨hki, -⟩ | ⟨hki, hold'⟩
      · exact absurd (hji.trans hki.symm) hne
      · exact hforeign k u hki hold' h' hm' handle hm
    · rcases put_scopes hk with ⟨-, rfl⟩ | ⟨-, hold'⟩
      · exact (hforeign j t hji hold handle hm h' hm').symm
      · exact h.apart j k t u hne hold hold' handle hm h' hm'

theorem opened_scopes {j : Nat} {t : PluginScope} (hj : (g.opened w').scopes[j]? = some t) :
    j = g.scopes.length ∧ t = w'.scope ∨ g.scopes[j]? = some t := by
  rcases Nat.lt_trichotomy j g.scopes.length with hlt | rfl | hgt
  · rw [Host.opened, List.getElem?_append_left hlt] at hj
    exact .inr hj
  · rw [Host.opened, List.getElem?_append_right (le_refl _), Nat.sub_self] at hj
    cases hj
    exact .inl ⟨rfl, rfl⟩
  · have := (List.getElem?_eq_some_iff.mp hj).1
    simp only [Host.opened, List.length_append, List.length_singleton] at this
    omega

theorem opened_scopes_old {j : Nat} {t : PluginScope} (hj : g.scopes[j]? = some t) :
    (g.opened w').scopes[j]? = some t := by
  rw [Host.opened, List.getElem?_append_left (List.getElem?_eq_some_iff.mp hj).1, hj]

theorem opened_scopes_new : (g.opened w').scopes[g.scopes.length]? = some w'.scope := by
  rw [Host.opened, List.getElem?_append_right (le_refl _), Nat.sub_self]
  rfl

theorem ScopesBooks.opened (h : ScopesBooks g) (he : Evolves ⟨g.registries, .new⟩ w')
    (hs : ScopeState w'.registries w'.scope) : ScopesBooks (g.opened w') := by
  have hforeign : ∀ (j : Nat) (t : PluginScope), g.scopes[j]? = some t → ∀ h' ∈ t.handles,
      ∀ handle ∈ w'.scope.handles, handle.target ≠ h'.target :=
    fun j t hj h' hm => he.foreign ((h.scopes j t hj).books.issued h' hm) nofun
  refine ⟨?_, ?_⟩
  · intro j t hj
    rcases opened_scopes hj with ⟨-, rfl⟩ | hold
    · exact hs
    · exact (h.scopes j t hold).drift he.drift
  · intro j k t u hne hj hk handle hm h' hm'
    rcases opened_scopes hj with ⟨hji, rfl⟩ | hold
    · rcases opened_scopes hk with ⟨hki, -⟩ | hold'
      · exact absurd (hji.trans hki.symm) hne
      · exact hforeign k u hold' h' hm' handle hm
    · rcases opened_scopes hk with ⟨-, rfl⟩ | hold'
      · exact (hforeign j t hold handle hm h' hm').symm
      · exact h.apart j k t u hne hold hold' handle hm h' hm'

-- What a call leaves alone: every scope that is not `own`, and every identity those scopes do not hold.
structure LeavesOthers (g g' : Host) (own : Nat → Prop) : Prop where
  scopes : ∀ (j : Nat) (t : PluginScope), ¬own j → g.scopes[j]? = some t →
    g'.scopes[j]? = some t ∧ ∀ h ∈ t.handles, g.registries.untouched g'.registries h.target
  foreign : ∀ x, g.registries.issued x →
    (∀ (j : Nat) (t : PluginScope), own j → g.scopes[j]? = some t → ∀ h ∈ t.handles, h.target ≠ x) →
    g.registries.untouched g'.registries x

theorem ScopesBooks.put_leaves {i : Nat} {s : PluginScope} (h : ScopesBooks g)
    (hi : g.scopes[i]? = some s) (he : Evolves ⟨g.registries, s⟩ w') :
    LeavesOthers g (g.put i w') (· = i) where
  scopes j t hne hj :=
    ⟨by rw [put_scopes_other hne, hj], fun h' hm =>
      he.untouched ((h.scopes j t hj).books.issued h' hm) fun handle hmem =>
        h.apart i j s t (Ne.symm hne) hi hj handle hmem h' hm⟩
  foreign _ hx hown := he.untouched hx fun handle hm => hown i s rfl hi handle hm

theorem ScopesBooks.opened_leaves (h : ScopesBooks g) (he : Evolves ⟨g.registries, .new⟩ w') :
    LeavesOthers g (g.opened w') fun _ => False where
  scopes j t _ hj :=
    ⟨opened_scopes_old hj, fun h' hm => he.untouched ((h.scopes j t hj).books.issued h' hm) nofun⟩
  foreign _ hx _ := he.untouched hx nofun

-- Everything registered before is still on record in the scope that is closed afterwards.
def Settled (g' : Host) (i : Nat) (s : PluginScope) : Prop :=
  ∃ s' : PluginScope, g'.scopes[i]? = some s' ∧ Released g'.registries s' ∧
    s.callbacks ≤ s'.callbacks ∧ ∀ h ∈ s.handles, ∃ h' ∈ s'.handles, h'.target = h.target

theorem settled_put {i : Nat} {s : PluginScope} (hi : g.scopes[i]? = some s)
    (he : Evolves ⟨g.registries, s⟩ w') (hr : Released w'.registries w'.scope) :
    Settled (g.put i w') i s := by
  refine ⟨w'.scope, put_scopes_self hi, hr, he.callbacks, fun h hm => ?_⟩
  obtain ⟨k, hk⟩ := List.mem_iff_getElem?.mp hm
  obtain ⟨h', hk', ht, -⟩ := he.kept k h hk
  exact ⟨h', List.mem_of_getElem? hk', ht⟩

theorem Logger.call_quiet (hquiet : ∀ message, logger message = none) (message : String) :
    logger.call message = none := by
  rw [Logger.call, hquiet]
  rfl

theorem disable_spec (hquiet : ∀ message, logger message = none) (h : ScopesBooks g) {i : Nat}
    {s : PluginScope} (hi : g.scopes[i]? = some s) (hc : s.closed = false) (script : Script) :
    ∃ w', (g.disable logger callbacks i script).2 = g.put i w' ∧
      Evolves ⟨g.registries, s⟩ w' ∧ ScopeState w'.registries w'.scope ∧
      Released w'.registries w'.scope := by
  have hs := h.scopes i s hi
  have ha := script_acts script ⟨g.registries, s⟩
  unfold Host.disable
  rw [workspace_eq hi]
  generalize script.run ⟨g.registries, s⟩ = ran at ha
  obtain ⟨failure, w⟩ := ran
  have hlog : (failure.bind fun _ => logger.call "Plugin disable failed") = none := by
    cases failure with
    | none => rfl
    | some error => exact Logger.call_quiet hquiet _
  obtain ⟨hopen, hwaiting⟩ := ha.opened hc
  obtain ⟨he, hb, hr⟩ := close_spec (callbacks i) (ha.books hs.books) hopen (hwaiting (hs.opened hc))
  simp only [hlog]
  generalize PluginScope.close (callbacks i) w = closed at he hb hr
  obtain ⟨later, w'⟩ := closed
  have hstate : ScopeState w'.registries w'.scope :=
    ⟨hb, fun hop => (nomatch hr.closed.symm.trans hop), fun _ => hr⟩
  refine ⟨w', ?_, ha.evolves.trans he, hstate, hr⟩
  cases later with
  | some error => rfl
  | none =>
    cases failure with
    | some error => rfl
    | none => rfl

structure Unloaded (g g' : Host) (name : String) (i : Nat) : Prop where
  books : HostBooks g'
  plugins : g'.plugins = g.plugins.unset name
  length : g'.scopes.length = g.scopes.length
  settled : ∀ s : PluginScope, g.scopes[i]? = some s → Settled g' i s
  others : LeavesOthers g g' (· = i)
  drift : Drifts g.registries g'.registries

theorem unload_spec (hquiet : ∀ message, logger message = none) (h : HostBooks g) {name : String}
    {i : Nat} (hg : g.plugins.get? name = some i) (script : Script) :
    Unloaded g (g.unload logger callbacks name script).2 name i := by
  obtain ⟨s, hi, hc⟩ := h.loaded name i hg
  have hbooks : ScopesBooks { g with plugins := g.plugins.unset name } := ⟨h.scopes, h.apart⟩
  obtain ⟨w', hw', he, hs, hr⟩ : ∃ w', (Host.disable logger callbacks i script _).2 = _ ∧ _ :=
    disable_spec hquiet hbooks hi hc script
  have heq : (g.unload logger callbacks name script).2 =
      ({ g with plugins := g.plugins.unset name } : Host).put i w' := by
    rw [← hw', Host.unload, hg]
  rw [heq]
  have hput := hbooks.put hi he hs
  have hothers := hbooks.put_leaves hi he
  refine ⟨⟨hput, ?_, ?_, ?_⟩, rfl, List.length_set, ?_, ⟨hothers.scopes, hothers.foreign⟩, he.drift⟩
  · intro name' j hj
    obtain ⟨hne, hold⟩ := OrderedMap.get?_unset_some hj
    obtain ⟨t, ht, hopen⟩ := h.loaded name' j hold
    have hji : j ≠ i := fun he => hne (h.unique _ _ _ hold (he ▸ hg))
    exact ⟨t, by rw [put_scopes_other hji, ht], hopen⟩
  · intro name₁ name₂ j h₁ h₂
    exact h.unique name₁ name₂ j (OrderedMap.get?_unset_some h₁).2
      (OrderedMap.get?_unset_some h₂).2
  · intro j t hj hopen
    rcases put_scopes hj with ⟨-, rfl⟩ | ⟨hji, hold⟩
    · exact nomatch hr.closed.symm.trans hopen
    · obtain ⟨name', hname'⟩ := h.listed j t hold hopen
      have hne : name' ≠ name := by
        rintro rfl
        exact hji (Option.some.inj (hname'.symm.trans hg))
      exact ⟨name', by rw [Host.put, OrderedMap.get?_unset, if_neg hne, hname']⟩
  · intro t ht
    cases hi.symm.trans ht
    exact settled_put hi he hr

theorem LeavesOthers.refl (g : Host) (own : Nat → Prop) : LeavesOthers g g own where
  scopes _ _ _ hj := ⟨hj, fun _ _ => Registries.untouched_refl _⟩
  foreign _ _ _ := Registries.untouched_refl _

structure RolledBack (g g' : Host) : Prop where
  plugins : g'.plugins = g.plugins
  released : ∀ (i : Nat) (s : PluginScope), g.scopes.length ≤ i → g'.scopes[i]? = some s →
    Released g'.registries s
  others : LeavesOthers g g' fun _ => False

theorem Roster.opened_closed (h : Roster g) (hc : w'.scope.closed = true) :
    Roster (g.opened w') where
  loaded name i hi := by
    obtain ⟨s, hs, hopen⟩ := h.loaded name i hi
    exact ⟨s, opened_scopes_old hs, hopen⟩
  unique := h.unique
  listed i s hi hopen := by
    rcases opened_scopes hi with ⟨-, rfl⟩ | hold
    · exact nomatch hc.symm.trans hopen
    · exact h.listed i s hold hopen

theorem Roster.opened_loaded (h : Roster g) (hc : w'.scope.closed = false) {name : String}
    (hnew : g.plugins.get? name = none) :
    Roster { g.opened w' with plugins := g.plugins.set name g.scopes.length } := by
  have hlt : ∀ name' i, g.plugins.get? name' = some i → i ≠ g.scopes.length := by
    rintro name' i hi rfl
    obtain ⟨s, hs, -⟩ := h.loaded name' _ hi
    exact absurd (List.getElem?_eq_some_iff.mp hs).1 (lt_irrefl _)
  refine ⟨?_, ?_, ?_⟩
  · intro name' i hi
    rw [OrderedMap.get?_set] at hi
    split_ifs at hi with hname
    · cases hi
      exact ⟨w'.scope, opened_scopes_new, hc⟩
    · obtain ⟨s, hs, hopen⟩ := h.loaded name' i hi
      exact ⟨s, opened_scopes_old hs, hopen⟩
  · intro name₁ name₂ i h₁ h₂
    rw [OrderedMap.get?_set] at h₁ h₂
    split_ifs at h₁ with hn₁
    · split_ifs at h₂ with hn₂
      · exact hn₁.trans hn₂.symm
      · exact absurd (Option.some.inj h₁).symm (hlt name₂ i h₂)
    · split_ifs at h₂ with hn₂
      · exact absurd (Option.some.inj h₂).symm (hlt name₁ i h₁)
      · exact h.unique name₁ name₂ i h₁ h₂
  · intro i s hi hopen
    rcases opened_scopes hi with ⟨rfl, -⟩ | hold
    · exact ⟨name, OrderedMap.get?_set_self⟩
    · obtain ⟨name', hname'⟩ := h.listed i s hold hopen
      have hne : name' ≠ name := by
        rintro rfl
        exact nomatch hnew.symm.trans hname'
      exact ⟨name', by rw [OrderedMap.get?_set, if_neg hne, hname']⟩

theorem RolledBack.refl (g : Host) : RolledBack g g where
  plugins := rfl
  released _ _ hle hi := absurd (List.getElem?_eq_some_iff.mp hi).1 (not_lt.mpr hle)
  others := .refl g _

theorem load_spec (hquiet : ∀ message, logger message = none) (h : HostBooks g) (name : String)
    (file : PluginFile) :
    HostBooks (g.load logger callbacks name file).2 ∧
      ((g.load logger callbacks name file).1 ≠ none →
        RolledBack g (g.load logger callbacks name file).2) := by
  unfold Host.load
  by_cases hreadable : file.readable = false
  · rw [if_pos hreadable]
    exact ⟨h, fun _ => .refl g⟩
  rw [if_neg hreadable]
  by_cases hloaded : (g.plugins.get? name).isSome
  · rw [if_pos hloaded]
    exact ⟨h, fun _ => .refl g⟩
  rw [if_neg hloaded]
  cases file.required
  case some message => exact ⟨h, fun _ => .refl g⟩
  by_cases hdefines : file.defines = false
  · simp only [if_pos hdefines]
    exact ⟨h, fun _ => .refl g⟩
  simp only [if_neg hdefines]
  cases file.constructed
  case some message => exact ⟨h, fun _ => .refl g⟩
  by_cases himplements : file.implements = false
  · simp only [if_pos himplements]
    exact ⟨h, fun _ => .refl g⟩
  simp only [if_neg himplements]
  have ha := script_acts file.enable ⟨g.registries, .new⟩
  generalize file.enable.run ⟨g.registries, .new⟩ = ran at ha
  obtain ⟨failure, w⟩ := ran
  have hnew := ScopeState.new g.registries
  obtain ⟨hopen, hwaiting⟩ := ha.opened rfl
  have hstate : ScopeState w.registries w.scope := ScopeState.act hnew ha
  cases failure with
  | none =>
    have hfree : g.plugins.get? name = none := Option.not_isSome_iff_eq_none.mp hloaded
    have hbooks := h.toScopesBooks.opened ha.evolves hstate
    refine ⟨⟨⟨hbooks.scopes, hbooks.apart⟩, h.toRoster.opened_loaded hopen hfree⟩, fun hne => ?_⟩
    exact absurd (Logger.call_quiet hquiet _) hne
  | some error =>
    obtain ⟨he, hb, hr⟩ := close_spec (callbacks g.scopes.length) hstate.books hopen
      (hstate.opened hopen)
    dsimp only
    generalize PluginScope.close (callbacks g.scopes.length) w = closed at he hb hr ⊢
    obtain ⟨later, w'⟩ := closed
    have hev := ha.evolves.trans he
    have hclosed : ScopeState w'.registries w'.scope :=
      ⟨hb, fun hop => (nomatch hr.closed.symm.trans hop), fun _ => hr⟩
    have hresult : HostBooks (g.opened w') ∧ RolledBack g (g.opened w') := by
      refine ⟨⟨h.toScopesBooks.opened hev hclosed, h.toRoster.opened_closed hr.closed⟩, rfl, ?_,
        h.toScopesBooks.opened_leaves hev⟩
      intro i s hle hi
      rcases opened_scopes hi with ⟨-, rfl⟩ | hold
      · exact hr
      · exact absurd (List.getElem?_eq_some_iff.mp hold).1 (not_lt.mpr hle)
    cases later with
    | none => exact ⟨hresult.1, fun _ => hresult.2⟩
    | some cleanupError => exact ⟨hresult.1, fun _ => hresult.2⟩

def OwnedBy (g : Host) (names : List String) (i : Nat) : Prop :=
  ∃ name ∈ names, g.plugins.get? name = some i

structure ShutDown (g g' : Host) (names : List String) : Prop where
  books : HostBooks g'
  plugins : ∀ name, g'.plugins.get? name = if name ∈ names then none else g.plugins.get? name
  settled : ∀ (i : Nat) (s : PluginScope), OwnedBy g names i → g.scopes[i]? = some s →
    Settled g' i s
  others : LeavesOthers g g' (OwnedBy g names)
  drift : Drifts g.registries g'.registries

theorem ShutDown.skip {g' : Host} {name : String} {rest : List String}
    (hg : g.plugins.get? name = none) (h : ShutDown g g' rest) : ShutDown g g' (name :: rest) := by
  have howned : ∀ i, OwnedBy g (name :: rest) i ↔ OwnedBy g rest i := by
    intro i
    constructor
    · rintro ⟨name', hm, hname'⟩
      rcases List.mem_cons.mp hm with rfl | hm'
      · exact nomatch hg.symm.trans hname'
      · exact ⟨name', hm', hname'⟩
    · rintro ⟨name', hm, hname'⟩
      exact ⟨name', List.mem_cons_of_mem _ hm, hname'⟩
  refine ⟨h.books, ?_, fun i s ho => h.settled i s ((howned i).mp ho), ⟨?_, ?_⟩, h.drift⟩
  · intro name'
    rw [h.plugins name']
    by_cases he : name' = name
    · subst he
      simp [hg]
    · simp [he]
  · exact fun j t hno => h.others.scopes j t fun ho => hno ((howned j).mpr ho)
  · exact fun x hx hown => h.others.foreign x hx fun j t ho => hown j t ((howned j).mpr ho)

theorem ShutDown.cons {g₁ g₂ : Host} {name : String} {rest : List String} {i : Nat}
    (hb : HostBooks g) (hg : g.plugins.get? name = some i) (h₁ : Unloaded g g₁ name i)
    (h₂ : ShutDown g₁ g₂ rest) : ShutDown g g₂ (name :: rest) := by
  have hget : ∀ name', g₁.plugins.get? name' =
      if name' = name then none else g.plugins.get? name' := by
    intro name'
    rw [h₁.plugins, OrderedMap.get?_unset]
  have hown₁ : ∀ j, OwnedBy g₁ rest j → OwnedBy g rest j ∧ j ≠ i := by
    rintro j ⟨name', hm, hname'⟩
    rw [hget] at hname'
    split_ifs at hname' with hne
    exact ⟨⟨name', hm, hname'⟩, fun he => hne (hb.unique _ _ _ hname' (he ▸ hg))⟩
  have hown : ∀ j, OwnedBy g rest j → j ≠ i → OwnedBy g₁ rest j := by
    rintro j ⟨name', hm, hname'⟩ hne
    have hnn : name' ≠ name := by
      rintro rfl
      exact hne (Option.some.inj (hname'.symm.trans hg))
    exact ⟨name', hm, by rw [hget, if_neg hnn, hname']⟩
  have hcons : ∀ j, OwnedBy g rest j → OwnedBy g (name :: rest) j :=
    fun j ⟨name', hm, hname'⟩ => ⟨name', List.mem_cons_of_mem _ hm, hname'⟩
  have hself : OwnedBy g (name :: rest) i := ⟨name, List.mem_cons_self, hg⟩
  have hiff : ∀ j, OwnedBy g (name :: rest) j → j = i ∨ OwnedBy g rest j := by
    rintro j ⟨name', hm, hname'⟩
    rcases List.mem_cons.mp hm with rfl | hm'
    · exact .inl (Option.some.inj (hname'.symm.trans hg))
    · exact .inr ⟨name', hm', hname'⟩
  refine ⟨h₂.books, ?_, ?_, ⟨?_, ?_⟩, h₁.drift.trans h₂.drift⟩
  · intro name'
    rw [h₂.plugins, hget]
    by_cases he : name' = name
    · simp [he]
    · simp [he]
  · intro j s ho hs
    by_cases hji : j = i
    · subst hji
      obtain ⟨s', hs', hr, hcount, hkept⟩ := h₁.settled s hs
      have hno : ¬OwnedBy g₁ rest j := fun ho' => (hown₁ j ho').2 rfl
      have hb' := h₁.books.scopes j s' hs'
      refine ⟨s', (h₂.others.scopes j s' hno hs').1, hr.drift hb'.books h₂.drift, hcount, hkept⟩
    · have ho' := hown j ((hiff j ho).resolve_left hji) hji
      exact h₂.settled j s ho' (h₁.others.scopes j s hji hs).1
  · intro j t hno ht
    have hji : j ≠ i := fun he => hno (he ▸ hself)
    obtain ⟨ht₁, hu₁⟩ := h₁.others.scopes j t hji ht
    have hno₁ : ¬OwnedBy g₁ rest j := fun ho => hno (hcons j (hown₁ j ho).1)
    obtain ⟨ht₂, hu₂⟩ := h₂.others.scopes j t hno₁ ht₁
    exact ⟨ht₂, fun handle hm => (hu₁ handle hm).trans (hu₂ handle hm)⟩
  · intro x hx hforeign
    have hu₁ := h₁.others.foreign x hx fun j t hji ht => hforeign j t (hji ▸ hself) ht
    refine hu₁.trans (h₂.others.foreign x (h₁.drift.issued x hx) fun j t ho ht => ?_)
    obtain ⟨ho', hji⟩ := hown₁ j ho
    have hlt := (List.getElem?_eq_some_iff.mp ht).1
    rw [h₁.length] at hlt
    have hget' := List.getElem?_eq_getElem hlt
    cases ht.symm.trans (h₁.others.scopes j _ hji hget').1
    exact hforeign j _ (hcons j ho') hget'

-- One plugin that fails does not stop the loop: the rest are unloaded before the failure is thrown.
theorem shutdownLoop_spec (hquiet : ∀ message, logger message = none) (scripts : String → Script)
    (names : List String) (h : HostBooks g) :
    ShutDown g (g.shutdownLoop logger callbacks scripts names).2 names := by
  induction names generalizing g with
  | nil =>
    refine ⟨h, fun _ => rfl, ?_, .refl g _, .refl _⟩
    rintro i s ⟨name, hm, -⟩
    exact absurd hm List.not_mem_nil
  | cons name rest ih =>
    have heq : (g.shutdownLoop logger callbacks scripts (name :: rest)).2 =
        ((g.unload logger callbacks name (scripts name)).2.shutdownLoop logger callbacks scripts
          rest).2 := rfl
    rw [heq]
    cases hg : g.plugins.get? name with
    | none =>
      have hid : g.unload logger callbacks name (scripts name) = (none, g) := by
        rw [Host.unload, hg]
      rw [hid]
      exact (ih h).skip hg
    | some i =>
      have hunloaded : Unloaded g (g.unload logger callbacks name (scripts name)).2 name i :=
        unload_spec hquiet h hg (scripts name)
      exact .cons h hg hunloaded (ih hunloaded.books)

theorem HostBooks.step (hquiet : ∀ message, logger message = none) (h : HostBooks g)
    (hs : HostStep logger callbacks g g') : HostBooks g' := by
  cases hs with
  | load name file => exact (load_spec hquiet h name file).1
  | unload name script =>
    cases hg : g.plugins.get? name with
    | none =>
      rw [Host.unload, hg]
      exact h
    | some i => exact (unload_spec hquiet h hg script).books
  | shutdown scripts => exact (shutdownLoop_spec hquiet scripts _ h).books
  | @act i hi script =>
    have hget := List.getElem?_eq_getElem hi
    have ha := script_acts script (g.workspace i)
    rw [workspace_eq hget] at ha ⊢
    generalize (script.run ⟨g.registries, g.scopes[i]⟩).2 = w' at ha
    have hstate : ScopeState w'.registries w'.scope :=
      ScopeState.act (h.scopes i _ hget) ha
    have hclosed : w'.scope.closed = g.scopes[i].closed := by
      cases hc : g.scopes[i].closed with
      | false => exact (ha.opened hc).1
      | true => exact (ha.frozen hc).1.closed
    refine ⟨h.toScopesBooks.put hget ha.evolves hstate, ?_, h.unique, ?_⟩
    · intro name j hj
      obtain ⟨s, hs, hopen⟩ := h.loaded name j hj
      by_cases hji : j = i
      · subst hji
        cases hget.symm.trans hs
        exact ⟨w'.scope, put_scopes_self hget, hclosed.trans hopen⟩
      · exact ⟨s, by rw [put_scopes_other hji, hs], hopen⟩
    · intro j s hj hopen
      rcases put_scopes hj with ⟨rfl, rfl⟩ | ⟨-, hold⟩
      · exact h.listed j _ hget (hclosed.symm.trans hopen)
      · exact h.listed j s hold hopen
  | outside ho =>
    exact ⟨⟨fun i s hi => (h.scopes i s hi).drift ho.drifts, h.apart⟩, h.loaded, h.unique, h.listed⟩

theorem HostBooks.start : HostBooks .new := by
  refine ⟨⟨nofun, ?_⟩, nofun, nofun, nofun⟩
  intro i j s t _ hi
  cases hi

theorem HostReachable.books (hquiet : ∀ message, logger message = none)
    (h : HostReachable logger callbacks g) : HostBooks g :=
  invariant_of_run HostBooks h .start fun _ _ hb hs => hb.step hquiet hs

def smokeFile : PluginFile where
  path := "SmokePlugin.php"
  readable := true
  required := none
  defines := true
  constructed := none
  implements := true
  enable := ⟨[(.on "Event", false), (.cleanup, false), (.command ⟨["smoke"], none⟩, false),
    (.after 1, false), (.cleanup, false), (.task, false)], none⟩

def failingScript : Script := ⟨[(.on "Late", true), (.cancel 0, false)], some "failure"⟩

def failingCallbacks : Nat → Nat → Script := fun _ _ => failingScript

def smokeHost : Host := (Host.new.load .silent failingCallbacks "Smoke" smokeFile).2

theorem smokeHost_reachable : HostReachable .silent failingCallbacks smokeHost :=
  .single (.load "Smoke" smokeFile)

end Cobblestone.Plugin
