import Mathlib.Logic.Function.Basic
import Cobblestone.Lib.Fencing
import Cobblestone.Runtime.Ownership

namespace Cobblestone.Runtime

open Lib

structure RegionId where
  x : Int32
  z : Int32
deriving DecidableEq, Repr

structure RegionRoute where
  owner : RuntimeId
  epoch : OwnershipEpoch
deriving DecidableEq, Repr

inductive RegionRouteError where
  | alreadyAssigned
  | unassigned
  | wrongOwner (requester current : RuntimeId)
  | staleEpoch (expected current : OwnershipEpoch)
  | epochExhausted
deriving DecidableEq, Repr

structure RegionRouteState where
  owner : Option RuntimeId
  epoch : OwnershipEpoch
deriving DecidableEq, Repr

structure RegionDirectory where
  routes : RegionId → Option RegionRouteState

namespace RegionDirectory

def new : RegionDirectory := ⟨fun _ => none⟩

def setRoute (d : RegionDirectory) (region : RegionId) (route : RegionRouteState) : RegionDirectory :=
  ⟨Function.update d.routes region (some route)⟩

def assign (d : RegionDirectory) (region : RegionId) (owner : RuntimeId) :
    Except RegionRouteError OwnershipEpoch × RegionDirectory :=
  match d.routes region with
  | some route =>
    match route.owner with
    | some _ => (.error .alreadyAssigned, d)
    | none => (.ok route.epoch, d.setRoute region { route with owner := some owner })
  | none => (.ok 0, d.setRoute region ⟨some owner, 0⟩)

def route (d : RegionDirectory) (region : RegionId) : Option RegionRoute := do
  let state ← d.routes region
  let owner ← state.owner
  pure ⟨owner, state.epoch⟩

def nextEpoch (epoch : OwnershipEpoch) : Except RegionRouteError OwnershipEpoch :=
  match epoch.next with
  | some next => .ok next
  | none => .error .epochExhausted

-- The checks that `transfer` and `unassign` make before they touch the record, and the epoch that
-- follows.
def release (d : RegionDirectory) (region : RegionId) (requester : RuntimeId)
    (expectedEpoch : OwnershipEpoch) : Except RegionRouteError OwnershipEpoch :=
  match d.routes region with
  | none => .error .unassigned
  | some route =>
    match route.owner with
    | none => .error .unassigned
    | some currentOwner =>
      if currentOwner ≠ requester then .error (.wrongOwner requester currentOwner)
      else if route.epoch ≠ expectedEpoch then .error (.staleEpoch expectedEpoch route.epoch)
      else nextEpoch route.epoch

def transfer (d : RegionDirectory) (region : RegionId) (requester : RuntimeId)
    (expectedEpoch : OwnershipEpoch) (newOwner : RuntimeId) :
    Except RegionRouteError OwnershipEpoch × RegionDirectory :=
  match d.release region requester expectedEpoch with
  | .error e => (.error e, d)
  | .ok next => (.ok next, d.setRoute region ⟨some newOwner, next⟩)

def unassign (d : RegionDirectory) (region : RegionId) (requester : RuntimeId)
    (expectedEpoch : OwnershipEpoch) : Except RegionRouteError OwnershipEpoch × RegionDirectory :=
  match d.release region requester expectedEpoch with
  | .error e => (.error e, d)
  | .ok next => (.ok next, d.setRoute region ⟨none, next⟩)

end RegionDirectory

inductive RegionCall where
  | assign (region : RegionId) (owner : RuntimeId)
  | transfer (region : RegionId) (requester : RuntimeId) (expectedEpoch : OwnershipEpoch)
      (newOwner : RuntimeId)
  | unassign (region : RegionId) (requester : RuntimeId) (expectedEpoch : OwnershipEpoch)
deriving DecidableEq, Repr

namespace RegionCall

def apply : RegionCall → RegionDirectory → Except RegionRouteError OwnershipEpoch × RegionDirectory
  | .assign region owner, d => d.assign region owner
  | .transfer region requester expectedEpoch newOwner, d =>
    d.transfer region requester expectedEpoch newOwner
  | .unassign region requester expectedEpoch, d => d.unassign region requester expectedEpoch

def region : RegionCall → RegionId
  | .assign region _ => region
  | .transfer region _ _ _ => region
  | .unassign region _ _ => region

-- Who owns the region when the call has succeeded.
def newOwner : RegionCall → Option RuntimeId
  | .assign _ owner => some owner
  | .transfer _ _ _ newOwner => some newOwner
  | .unassign _ _ _ => none

end RegionCall

def RegionDirectory.run (calls : List RegionCall) (d : RegionDirectory) : RegionDirectory :=
  calls.foldl (fun d call => (call.apply d).2) d

namespace RegionDirectory

variable {d d' d'' : RegionDirectory} {region other : RegionId} {call : RegionCall}
  {error : RegionRouteError} {epoch : OwnershipEpoch}

-- A region without a record is nobody's, at the epoch that its first record will have.
def tenure (d : RegionDirectory) (region : RegionId) : Tenure RuntimeId Nat :=
  match d.routes region with
  | some route => ⟨route.owner, route.epoch.toNat⟩
  | none => ⟨none, 0⟩

theorem tenure_setRoute_self (route : RegionRouteState) :
    (d.setRoute region route).tenure region = ⟨route.owner, route.epoch.toNat⟩ := by
  simp [tenure, setRoute]

theorem tenure_setRoute_of_ne (route : RegionRouteState) (h : other ≠ region) :
    (d.setRoute region route).tenure other = d.tenure other := by
  simp [tenure, setRoute, h]

theorem route_eq_some_iff {owner : RuntimeId} :
    d.route region = some ⟨owner, epoch⟩ ↔ (d.tenure region).Holds owner epoch.toNat := by
  rw [route, tenure, Tenure.Holds]
  cases d.routes region with
  | none => simp
  | some state => cases hstate : state.owner <;> simp [hstate, UInt64.toNat_inj]

theorem release_ok {requester : RuntimeId} {expected next : OwnershipEpoch}
    (h : d.release region requester expected = .ok next) :
    (d.tenure region).Holds requester expected.toNat ∧ next.toNat = expected.toNat + 1 := by
  rw [release] at h
  rw [tenure, Tenure.Holds]
  split at h
  · cases h
  · rename_i route hroute
    rw [hroute]
    split at h
    · cases h
    · rename_i owner howner
      split at h
      · cases h
      · rename_i hrequester
        split at h
        · cases h
        · rename_i hepoch
          rw [not_not] at hrequester hepoch
          subst hrequester hepoch
          rw [nextEpoch] at h
          split at h
          · rename_i hnext
            cases h
            exact ⟨⟨howner, rfl⟩, OwnershipEpoch.next_toNat hnext⟩
          · cases h

-- What a call that succeeds finds and leaves.
structure Succeeds (call : RegionCall) (epoch : OwnershipEpoch) (d d' : RegionDirectory) : Prop where
  tenure : d'.tenure call.region = ⟨call.newOwner, epoch.toNat⟩
  others : ∀ other, other ≠ call.region → d'.tenure other = d.tenure other
  assigned : ∀ region owner, call = .assign region owner →
    d.tenure region = ⟨none, epoch.toNat⟩
  raised : (∀ region owner, call ≠ .assign region owner) →
    epoch.toNat = (d.tenure call.region).epoch + 1

theorem assign_cases (d : RegionDirectory) (region : RegionId) (owner : RuntimeId) :
    d.assign region owner = (.error .alreadyAssigned, d) ∨
      ∃ epoch, d.tenure region = ⟨none, epoch.toNat⟩ ∧
        d.assign region owner = (.ok epoch, d.setRoute region ⟨some owner, epoch⟩) := by
  rw [assign, RegionDirectory.tenure]
  cases hroute : d.routes region with
  | none => exact .inr ⟨0, rfl, rfl⟩
  | some route =>
    cases howner : route.owner with
    | none => exact .inr ⟨route.epoch, by simp [howner], by simp [howner]⟩
    | some current => exact .inl (by simp [howner])

theorem call_cases (call : RegionCall) (d : RegionDirectory) :
    (∃ e, call.apply d = (.error e, d)) ∨
      ∃ epoch d', call.apply d = (.ok epoch, d') ∧ Succeeds call epoch d d' := by
  cases call with
  | assign region owner =>
    rcases assign_cases d region owner with h | ⟨epoch, hfree, h⟩
    · exact .inl ⟨_, h⟩
    · refine .inr ⟨epoch, _, h, tenure_setRoute_self _, fun other => tenure_setRoute_of_ne _,
        fun r o heq => ?_, fun hne => absurd rfl (hne region owner)⟩
      cases heq
      exact hfree
  | transfer region requester expected newOwner =>
    rw [RegionCall.apply, transfer]
    cases h : d.release region requester expected with
    | error e => exact .inl ⟨e, rfl⟩
    | ok next =>
      obtain ⟨⟨-, hepoch⟩, hnext⟩ := release_ok h
      refine .inr ⟨next, _, rfl, tenure_setRoute_self _, fun other => tenure_setRoute_of_ne _,
        fun _ _ heq => (nomatch heq), fun _ => ?_⟩
      rw [hnext, ← hepoch]
      rfl
  | unassign region requester expected =>
    rw [RegionCall.apply, unassign]
    cases h : d.release region requester expected with
    | error e => exact .inl ⟨e, rfl⟩
    | ok next =>
      obtain ⟨⟨-, hepoch⟩, hnext⟩ := release_ok h
      refine .inr ⟨next, _, rfl, tenure_setRoute_self _, fun other => tenure_setRoute_of_ne _,
        fun _ _ heq => (nomatch heq), fun _ => ?_⟩
      rw [hnext, ← hepoch]
      rfl

theorem Succeeds.fenced (h : Succeeds call epoch d d') :
    Tenure.Fenced (d.tenure call.region) (d'.tenure call.region) := by
  have hraise (hne : ∀ region owner, call ≠ .assign region owner) :
      (d.tenure call.region).epoch < (d'.tenure call.region).epoch := by
    have hepoch := h.raised hne
    rw [h.tenure, ← Nat.succ_le_iff]
    exact hepoch.ge
  cases call with
  | assign region owner =>
    have hfree := h.assigned region owner rfl
    have hnow : d'.tenure region = ⟨some owner, epoch.toNat⟩ := h.tenure
    refine ⟨?_, fun o ho => ?_⟩
    · change (d.tenure region).epoch ≤ (d'.tenure region).epoch
      rw [hfree, hnow]
    · change (d.tenure region).holder = some o at ho
      rw [hfree] at ho
      cases ho
  | transfer | unassign =>
    have hlt := hraise nofun
    exact ⟨hlt.le, fun _ _ _ => hlt⟩

theorem apply_fenced (region : RegionId) (d : RegionDirectory) (call : RegionCall) :
    Tenure.Fenced (d.tenure region) ((call.apply d).2.tenure region) := by
  rcases call_cases call d with ⟨e, heq⟩ | ⟨epoch, d', heq, hs⟩
  · rw [heq]
    exact .refl _
  · rw [heq]
    by_cases hregion : region = call.region
    · rw [hregion]
      exact hs.fenced
    · rw [hs.others region hregion]
      exact .refl _

theorem run_fenced (region : RegionId) (calls : List RegionCall) (d : RegionDirectory) :
    Tenure.Fenced (d.tenure region) ((d.run calls).tenure region) := by
  have h := Tenure.Fenced.foldl (apply_fenced region) calls d
  exact h

-- What holds of a directory, of one that it becomes, and of one that this one becomes.
structure Disciplined (d d' d'' : RegionDirectory) : Prop where
  increasing : ∀ region old new, d.route region = some old → d'.route region = some new →
    old = new ∨ old.epoch < new.epoch
  stale : ∀ region old, d.route region = some old → d'.route region ≠ some old →
    d''.route region ≠ some old
  single : ∀ region a b, d.route region = some a → d.route region = some b → a.owner = b.owner
  failed : ∀ call error, (RegionCall.apply call d).1 = .error error → (call.apply d).2 = d
  succeeded : ∀ call epoch, (RegionCall.apply call d).1 = .ok epoch →
    Succeeds call epoch d (call.apply d).2

theorem region_ownership_fenced (before between after : List RegionCall) :
    Disciplined (new.run before) ((new.run before).run between)
      (((new.run before).run between).run after) := by
  generalize new.run before = d
  have hfirst (region : RegionId) := run_fenced region between d
  have hsecond (region : RegionId) := run_fenced region after (d.run between)
  refine ⟨fun region old new hold hnew => ?_, fun region old hold hlost => ?_,
    fun region a b ha hb => ?_, fun call error herror => ?_, fun call epoch hok => ?_⟩
  · have hlater := (hfirst region).later (route_eq_some_iff.mp hold) (route_eq_some_iff.mp hnew)
    rcases hlater with ⟨howner, hepoch⟩ | hlt
    · refine .inl ?_
      cases old
      cases new
      cases howner
      cases UInt64.toNat_inj.mp hepoch
      rfl
    · exact .inr (UInt64.lt_iff_toNat_lt.mpr hlt)
  · have hheld := route_eq_some_iff.mp hold
    have hgone := mt route_eq_some_iff.mpr hlost
    exact mt route_eq_some_iff.mp ((hfirst region).stale (hsecond region) hheld hgone)
  · rw [ha] at hb
    cases hb
    rfl
  · rcases call_cases call d with ⟨e, heq⟩ | ⟨epoch, d', heq, -⟩
    · rw [heq]
    · rw [heq] at herror
      cases herror
  · rcases call_cases call d with ⟨e, heq⟩ | ⟨epoch', d', heq, hs⟩
    · rw [heq] at hok
      cases hok
    · rw [heq] at hok ⊢
      cases hok
      exact hs

-- The region changes from nobody's to the second runtime's, and its epoch stays what it was.
theorem assigned_without_new_epoch :
    let released := new.run [.assign ⟨0, 0⟩ 1, .unassign ⟨0, 0⟩ 1 0]
    let assigned := released.run [.assign ⟨0, 0⟩ 2]
    released.route ⟨0, 0⟩ = none ∧ assigned.route ⟨0, 0⟩ = some ⟨2, 1⟩ ∧
      (released.tenure ⟨0, 0⟩).epoch = (assigned.tenure ⟨0, 0⟩).epoch := by
  decide

end RegionDirectory

end Cobblestone.Runtime
