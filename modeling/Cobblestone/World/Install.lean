import Cobblestone.World.Advance
import Cobblestone.World.Journal

namespace Cobblestone.World

open Lib WorldStore

variable {s : WorldStore} {p : ChunkCoord} {c : ChunkRecord} {i : ChunkImport}

def bumped (changed : Bool) (revision : UInt64) : Option UInt64 :=
  if changed then checkedSucc revision else some revision

def installed (c : ChunkRecord) (i : ChunkImport) (t l : UInt64) : ChunkRecord :=
  { c with
    terrainRevision := t
    lightRevision := l
    data := if terrainChanged c i.data || lightChanged c i.data then i.data else c.data
    lifecycleFlags := i.lifecycleFlags }

-- Whatever an installation over a resident chunk can do, errors included.
theorem installOver_cases (c : ChunkRecord) (i : ChunkImport) :
    (∃ t l changed, bumped (terrainChanged c i.data) c.terrainRevision = some t ∧
      bumped (lightChanged c i.data) c.lightRevision = some l ∧
        installOver c i = (.ok changed, installed c i t l)) ∨
    (terrainChanged c i.data = true ∧ checkedSucc c.terrainRevision = none ∧
      installOver c i = (.error .terrainRevisionExhausted, c)) ∨
    (∃ t, bumped (terrainChanged c i.data) c.terrainRevision = some t ∧
      lightChanged c i.data = true ∧ checkedSucc c.lightRevision = none ∧
        installOver c i = (.error .lightRevisionExhausted, { c with terrainRevision := t })) := by
  rw [installOver]
  dsimp only
  cases ht : (if terrainChanged c i.data then checkedSucc c.terrainRevision
      else some c.terrainRevision) with
  | none =>
    refine .inr (.inl ?_)
    cases hterrain : terrainChanged c i.data with
    | false => simp [hterrain] at ht
    | true => exact ⟨rfl, by simpa [hterrain] using ht, rfl⟩
  | some t =>
    cases hl : (if lightChanged c i.data then checkedSucc c.lightRevision
        else some c.lightRevision) with
    | none =>
      refine .inr (.inr ⟨t, ht, ?_⟩)
      cases hlight : lightChanged c i.data with
      | false => simp [hlight] at hl
      | true => exact ⟨rfl, by simpa [hlight] using hl, rfl⟩
    | some l =>
      refine .inl ⟨t, l, terrainChanged c i.data || lightChanged c i.data ||
        c.lifecycleFlags != i.lifecycleFlags, ht, hl, ?_⟩
      rw [installed]
      cases terrainChanged c i.data || lightChanged c i.data <;> rfl

theorem installOver_accepted {t l : UInt64} (ht : checkedSucc c.terrainRevision = some t)
    (hl : checkedSucc c.lightRevision = some l) : ∃ changed, (installOver c i).1 = .ok changed := by
  rcases installOver_cases c i with ⟨_, _, changed, -, -, h⟩ | ⟨-, hn, -⟩ | ⟨_, -, -, hn, -⟩
  · exact ⟨changed, by rw [h]⟩
  · rw [ht] at hn
    cases hn
  · rw [hl] at hn
    cases hn

theorem installOver_exhausted (hn : checkedSucc c.terrainRevision = none)
    (h : terrainChanged c i.data = true) :
    installOver c i = (.error .terrainRevisionExhausted, c) := by
  rcases installOver_cases c i with ⟨_, _, _, ht, -, -⟩ | ⟨-, -, heq⟩ | ⟨_, ht, -⟩
  · rw [bumped, h, if_pos rfl, hn] at ht
    cases ht
  · exact heq
  · rw [bumped, h, if_pos rfl, hn] at ht
    cases ht

theorem data_eq_iff (d : ChunkData) : c.data = d ↔
    terrainChanged c d = false ∧ lightChanged c d = false ∧
      c.data.chestBlockEntities = d.chestBlockEntities := by
  constructor
  · rintro rfl
    simp [terrainChanged, lightChanged]
  · rintro ⟨ht, hl, hchests⟩
    simp only [terrainChanged, lightChanged, Bool.or_eq_false_iff, bne_eq_false_iff_eq] at ht hl
    obtain ⟨⟨⟨hstates, hbiomes⟩, hheights⟩, hextra⟩ := ht
    cases c with
    | mk tr lr pt pl pf pins flags data =>
      cases data
      cases d
      simp_all

theorem bumped_dirty (hmarks : MarksBehind c) {t l : UInt64}
    (ht : bumped (terrainChanged c i.data) c.terrainRevision = some t)
    (hl : bumped (lightChanged c i.data) c.lightRevision = some l)
    (hchanged : terrainChanged c i.data = true ∨ lightChanged c i.data = true) :
    (installed c i t l).isDirty = true := by
  have hahead {n m : UInt64} {marked : Option UInt64} (hm : ∀ k, marked = some k → k ≤ n)
      (hs : checkedSucc n = some m) : marked ≠ some m := by
    intro h
    have hle := UInt64.le_iff_toNat_le.mp (hm m h)
    have := checkedSucc_toNat hs
    omega
  rw [← Bool.not_eq_false, ChunkRecord.not_dirty_iff]
  rintro ⟨hpt, hpl, -⟩
  rcases hchanged with h | h
  · rw [bumped, h, if_pos rfl] at ht
    exact hahead hmarks.terrain ht hpt
  · rw [bumped, h, if_pos rfl] at hl
    exact hahead hmarks.light hl hpl

-- What an installation promises about the resident chunk.
structure InstallExact (s : WorldStore) (p : ChunkCoord) (c : ChunkRecord) (i : ChunkImport) :
    Prop where
  stored : ∀ changed, (s.installGeneratedChunk p i).1 = .ok changed →
    ∃ c', (s.installGeneratedChunk p i).2.chunks p = some c' ∧ c'.data = i.data ∧
      (c.data ≠ i.data ∨ c.lifecycleFlags ≠ i.lifecycleFlags → c'.isDirty = true)
  failed : ∀ e, (s.installGeneratedChunk p i).1 = .error e →
    (s.installGeneratedChunk p i).2.chunks p = some c

structure InstallsExactly (c : ChunkRecord) (i : ChunkImport) : Prop where
  chests : terrainChanged c i.data = false → lightChanged c i.data = false →
    c.data.chestBlockEntities = i.data.chestBlockEntities
  flags : terrainChanged c i.data = false → lightChanged c i.data = false →
    c.lifecycleFlags ≠ i.lifecycleFlags →
      ¬(c.persistedTerrainRevision = some c.terrainRevision ∧
        c.persistedLightRevision = some c.lightRevision ∧
        c.persistedLifecycleFlags = some i.lifecycleFlags)
  revisions : terrainChanged c i.data = true → lightChanged c i.data = true →
    checkedSucc c.terrainRevision ≠ none → checkedSucc c.lightRevision ≠ none

theorem installGeneratedChunk_over (hc : s.chunks p = some c) (hi : validateImport i = .ok ()) :
    s.installGeneratedChunk p i = ((installOver c i).1, s.setChunk p (installOver c i).2) := by
  rw [installGeneratedChunk, hi, hc]

theorem installed_exact (hmarks : MarksBehind c) (h : InstallsExactly c i) {t l : UInt64}
    (ht : bumped (terrainChanged c i.data) c.terrainRevision = some t)
    (hl : bumped (lightChanged c i.data) c.lightRevision = some l) :
    (installed c i t l).data = i.data ∧
      (c.data ≠ i.data ∨ c.lifecycleFlags ≠ i.lifecycleFlags →
        (installed c i t l).isDirty = true) := by
  by_cases hchanged : terrainChanged c i.data = true ∨ lightChanged c i.data = true
  · refine ⟨?_, fun _ => bumped_dirty hmarks ht hl hchanged⟩
    rw [installed]
    exact if_pos (Bool.or_eq_true _ _ ▸ hchanged)
  · rw [not_or, Bool.not_eq_true, Bool.not_eq_true] at hchanged
    obtain ⟨hterrain, hlight⟩ := hchanged
    have hdata : c.data = i.data := (data_eq_iff i.data).mpr ⟨hterrain, hlight, h.chests hterrain hlight⟩
    have hstored : (installed c i t l).data = c.data := by
      rw [installed]
      exact if_neg (by rw [hterrain, hlight]; decide)
    refine ⟨hstored.trans hdata, fun hdiff => ?_⟩
    have hflags := h.flags hterrain hlight (hdiff.resolve_left (not_not.mpr hdata))
    rw [bumped, hterrain, if_neg Bool.false_ne_true] at ht
    rw [bumped, hlight, if_neg Bool.false_ne_true] at hl
    cases ht
    cases hl
    rw [← Bool.not_eq_false, ChunkRecord.not_dirty_iff]
    exact hflags

theorem exact_of_installed {t l : UInt64} {changed : Bool} (hc : s.chunks p = some c)
    (hi : validateImport i = .ok ()) (hover : installOver c i = (.ok changed, installed c i t l))
    (h : InstallExact s p c i) : (installed c i t l).data = i.data ∧
      (c.data ≠ i.data ∨ c.lifecycleFlags ≠ i.lifecycleFlags →
        (installed c i t l).isDirty = true) := by
  have hrun := installGeneratedChunk_over hc hi
  rw [hover] at hrun
  obtain ⟨c', hc', hdata, hdirty⟩ := h.stored changed (by rw [hrun])
  rw [hrun, setChunk_self] at hc'
  cases hc'
  exact ⟨hdata, hdirty⟩

theorem installsExactly_of_exact (hc : s.chunks p = some c) (hi : validateImport i = .ok ())
    (h : InstallExact s p c i) : InstallsExactly c i := by
  rcases installOver_cases c i with ⟨t, l, changed, ht, hl, hover⟩ | ⟨hterrain, hnone, -⟩ |
    ⟨t, ht, hlight, hnone, hover⟩
  · obtain ⟨hdata, hdirty⟩ := exact_of_installed hc hi hover h
    constructor
    · intro hterrain hlight
      rw [installed, if_neg (by rw [hterrain, hlight]; decide)] at hdata
      exact congrArg ChunkData.chestBlockEntities hdata
    · intro hterrain hlight hflags hclean
      rw [bumped, hterrain, if_neg Bool.false_ne_true] at ht
      rw [bumped, hlight, if_neg Bool.false_ne_true] at hl
      cases ht
      cases hl
      have hstill := hdirty (.inr hflags)
      rw [← Bool.not_eq_false, ChunkRecord.not_dirty_iff] at hstill
      exact hstill hclean
    · intro _ hlight _ hnone
      rw [bumped, hlight, if_pos rfl, hnone] at hl
      cases hl
  · constructor
    · intro hno
      rw [hno] at hterrain
      cases hterrain
    · intro hno
      rw [hno] at hterrain
      cases hterrain
    · exact fun _ _ hsome => absurd hnone hsome
  · have hrun := installGeneratedChunk_over hc hi
    rw [hover] at hrun
    have hkept := h.failed .lightRevisionExhausted (by rw [hrun])
    rw [hrun, setChunk_self, Option.some.injEq] at hkept
    have hsame : c.terrainRevision = t := congrArg ChunkRecord.terrainRevision hkept.symm
    constructor
    · intro _ hno
      rw [hno] at hlight
      cases hlight
    · intro _ hno
      rw [hno] at hlight
      cases hlight
    · intro hterrain _ _ _
      rw [bumped, hterrain, if_pos rfl, ← hsame] at ht
      exact checkedSucc_ne ht rfl

theorem exact_of_installsExactly (hmarks : MarksBehind c) (hc : s.chunks p = some c)
    (hi : validateImport i = .ok ()) (h : InstallsExactly c i) : InstallExact s p c i := by
  have hrun := installGeneratedChunk_over hc hi
  rcases installOver_cases c i with ⟨t, l, changed, ht, hl, hover⟩ | ⟨-, -, hover⟩ |
    ⟨t, ht, hlight, hnone, hover⟩
  · rw [hover] at hrun
    obtain ⟨hdata, hdirty⟩ := installed_exact hmarks h ht hl
    constructor
    · intro _ _
      exact ⟨installed c i t l, by rw [hrun, setChunk_self], hdata, hdirty⟩
    · intro e he
      rw [hrun] at he
      cases he
  · rw [hover] at hrun
    constructor
    · intro changed hok
      rw [hrun] at hok
      cases hok
    · intro _ _
      rw [hrun, setChunk_self]
  · rw [hover] at hrun
    constructor
    · intro changed hok
      rw [hrun] at hok
      cases hok
    · intro _ _
      have hterrain : terrainChanged c i.data = false := by
        by_contra hterrain
        rw [Bool.not_eq_false] at hterrain
        refine h.revisions hterrain hlight (fun hn => ?_) hnone
        rw [bumped, hterrain, if_pos rfl, hn] at ht
        cases ht
      rw [bumped, hterrain, if_neg Bool.false_ne_true] at ht
      cases ht
      rw [hrun, setChunk_self]

theorem install_exact_iff {allowed : ChunkImport → Prop} (hs : s.Reachable allowed)
    (hc : s.chunks p = some c) (hi : validateImport i = .ok ()) :
    InstallExact s p c i ↔ InstallsExactly c i :=
  ⟨installsExactly_of_exact hc hi, exact_of_installsExactly (hs.marks p c hc) hc hi⟩

def chestImport : ChunkImport where
  terrainRevision := 0
  lightRevision := 0
  lifecycleFlags := 0
  data := { bareChunk.data with chestBlockEntities := [⟨1, 64, 1, []⟩] }

theorem bareChunk_wellFormed : bareChunk.data.WellFormed :=
  ChunkData.empty_wellFormed 0x0192bc59 (by decide)

theorem chestImport_valid : validateImport chestImport = .ok () :=
  validateImport_ok_iff.mpr ⟨by decide, { bareChunk_wellFormed with }⟩

theorem install_exact_iff_stone :
    InstallExact bareStore originChunk bareChunk stoneImport ↔ InstallsExactly bareChunk stoneImport :=
  install_exact_iff (bareStore_reachable fun _ => False)
    (setChunk_self WorldStore.new originChunk bareChunk) stoneImport_valid

-- A chest that only the import has is dropped, and the call still succeeds.
theorem install_drops_chests : validateImport chestImport = .ok () ∧
    bareStore.chunks originChunk = some bareChunk ∧
      (bareStore.installGeneratedChunk originChunk chestImport).1 = .ok false ∧
        ¬InstallExact bareStore originChunk bareChunk chestImport := by
  have hc : bareStore.chunks originChunk = some bareChunk :=
    setChunk_self WorldStore.new originChunk bareChunk
  have hterrain : terrainChanged bareChunk chestImport.data = false := by
    simp [terrainChanged, chestImport]
  have hlight : lightChanged bareChunk chestImport.data = false := by
    simp [lightChanged, chestImport]
  refine ⟨chestImport_valid, hc, ?_, fun h => ?_⟩
  · rw [installGeneratedChunk_over hc chestImport_valid, installOver]
    simp only [hterrain, hlight]
    rfl
  · have hchests := (installsExactly_of_exact hc chestImport_valid h).chests hterrain hlight
    cases hchests

end Cobblestone.World
