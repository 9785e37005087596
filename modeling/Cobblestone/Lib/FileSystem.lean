import Cobblestone.Lib.Effect

namespace Lib

inductive IoError where
  | alreadyExists
  | notFound
  | other
deriving DecidableEq, Repr

-- How the environment lets one step on the medium end.
inductive StepOutcome where
  | succeeds
  | fails
  | stops
deriving DecidableEq, Repr

inductive Interrupt (ε : Type) where
  | failed (error : ε)
  | stopped
deriving DecidableEq, Repr

structure FileState (β : Type) where
  content : List β
  synced : Bool
deriving DecidableEq

-- Names lead to files, and two names may lead to one.
structure FileSystem (Name β : Type) where
  files : List (FileState β)
  names : Name → Option Nat

abbrev Stoppable (ε σ α : Type) := Effect (Interrupt ε) σ α

abbrev Io (Name β α : Type) := Stoppable IoError (FileSystem Name β) α

namespace FileSystem

open Effect

section

variable {ε ε' σ α : Type}

def performs (outcome : StepOutcome) (op : σ → Except ε α × σ) (failure : ε) : Stoppable ε σ α :=
  ofOp fun s => match outcome with
    | .succeeds => match op s with
      | (.ok a, t) => (.ok a, t)
      | (.error e, t) => (.error (.failed e), t)
    | .fails => (.error (.failed failure), s)
    | .stops => (.error .stopped, s)

def fail (error : ε) : Stoppable ε σ α := ofOp fun s => (.error (.failed error), s)

-- A failed step hands its error on; a stopped one is the end of the process.
def attempt (m : Stoppable ε σ α) : Stoppable ε' σ (Except ε α) :=
  ofOp fun s => match m.exec s with
    | (.ok a, t) => (.ok (.ok a), t)
    | (.error (.failed e), t) => (.ok (.error e), t)
    | (.error .stopped, t) => (.error .stopped, t)

def orElse (error : ε → ε') (m : Stoppable ε σ α) : Stoppable ε' σ α :=
  ofOp fun s => match m.exec s with
    | (.ok a, t) => (.ok a, t)
    | (.error (.failed e), t) => (.error (.failed (error e)), t)
    | (.error .stopped, t) => (.error .stopped, t)

def orFail : Except ε α → Stoppable ε σ α
  | .ok a => pure a
  | .error e => fail e

variable {R : σ → σ → Prop} {Q : σ → Prop} {s t : σ} {a : α} {error : ε}

theorem moves_performs {outcome : StepOutcome} {op : σ → Except ε α × σ}
    (h : ∀ s, Q s → Q (op s).2) : Moves (keeps Q) (performs outcome op error) := by
  intro s hs
  cases outcome with
  | fails | stops => exact hs
  | succeeds =>
    have hop := h s hs
    rw [performs, exec_ofOp]
    generalize op s = r at hop
    obtain ⟨result, t⟩ := r
    cases result <;> exact hop

theorem performs_ok {outcome : StepOutcome} {op : σ → Except ε α × σ} :
    (performs outcome op error).exec s = (.ok a, t) ↔
      outcome = .succeeds ∧ op s = (.ok a, t) := by
  rw [performs, exec_ofOp]
  generalize op s = r
  obtain ⟨result, u⟩ := r
  cases outcome <;> cases result <;> simp

theorem performs_failed {outcome : StepOutcome} {op : σ → Except ε α × σ} {e : ε} :
    (performs outcome op error).exec s = (.error (.failed e), t) ↔
      outcome = .succeeds ∧ op s = (.error e, t) ∨ outcome = .fails ∧ e = error ∧ t = s := by
  rw [performs, exec_ofOp]
  generalize op s = r
  obtain ⟨result, u⟩ := r
  cases outcome <;> cases result <;> simp [eq_comm]

@[simp] theorem exec_fail : (fail error : Stoppable ε σ α).exec s = (.error (.failed error), s) :=
  rfl

theorem moves_fail [Std.Refl R] : Moves R (fail error : Stoppable ε σ α) :=
  fun s => Std.Refl.refl (r := R) s

theorem moves_orFail [Std.Refl R] (r : Except ε α) : Moves R (orFail r) := by
  cases r with
  | ok a => exact Moves.pure a
  | error e => exact moves_fail

theorem orFail_ok {r : Except ε α} : (orFail r).exec s = (.ok a, t) ↔ r = .ok a ∧ s = t := by
  cases r <;> simp [orFail]

theorem moves_attempt {m : Stoppable ε σ α} (h : Moves R m) :
    Moves R (attempt m : Stoppable ε' σ (Except ε α)) := by
  intro s
  have hm := h s
  rw [attempt, exec_ofOp]
  generalize m.exec s = r at hm
  rcases r with ⟨_ | a, t⟩
  · rename_i interrupt
    cases interrupt <;> exact hm
  · exact hm

theorem attempt_ok {m : Stoppable ε σ α} {r : Except ε α} :
    (attempt m : Stoppable ε' σ (Except ε α)).exec s = (.ok r, t) ↔
      (∃ a, r = .ok a ∧ m.exec s = (.ok a, t)) ∨
      ∃ e, r = .error e ∧ m.exec s = (.error (.failed e), t) := by
  rw [attempt, exec_ofOp]
  generalize m.exec s = q
  rcases q with ⟨_ | a, u⟩
  · rename_i interrupt
    cases interrupt <;> simp [eq_comm]
  · simp [eq_comm]

theorem moves_orElse {m : Stoppable ε σ α} {f : ε → ε'} (h : Moves R m) : Moves R (orElse f m) := by
  intro s
  have hm := h s
  rw [orElse, exec_ofOp]
  generalize m.exec s = r at hm
  rcases r with ⟨_ | a, t⟩
  · rename_i interrupt
    cases interrupt <;> exact hm
  · exact hm

theorem orElse_ok {m : Stoppable ε σ α} {f : ε → ε'} :
    (orElse f m).exec s = (.ok a, t) ↔ m.exec s = (.ok a, t) := by
  rw [orElse, exec_ofOp]
  generalize m.exec s = r
  rcases r with ⟨_ | b, u⟩
  · rename_i interrupt
    cases interrupt <;> simp
  · simp

end

variable {Name β : Type}

def read (fs : FileSystem Name β) (name : Name) : Option (List β) :=
  (fs.names name).bind fun file => fs.files[file]?.map FileState.content

def appendTo (file : Nat) (bytes : List β) (fs : FileSystem Name β) : FileSystem Name β :=
  { fs with files := fs.files.modify file fun f => ⟨f.content ++ bytes, false⟩ }

-- What does not succeed leaves the first `written` bytes.
def writeAll (file : Nat) (bytes : List β) (outcome : StepOutcome) (written : Nat) : Io Name β Unit :=
  ofOp fun fs => match outcome with
    | .succeeds => (.ok (), appendTo file bytes fs)
    | .fails => (.error (.failed .other), appendTo file (bytes.take written) fs)
    | .stops => (.error .stopped, appendTo file (bytes.take written) fs)

def markSynced (file : Nat) (fs : FileSystem Name β) : FileSystem Name β :=
  { fs with files := fs.files.modify file fun f => { f with synced := true } }

def syncFile (file : Nat) (outcome : StepOutcome) : Io Name β Unit :=
  performs outcome (fun fs => (.ok (), markSynced file fs)) .other

-- A name that was given is not taken back, so all that is left of a directory sync is its result.
def syncDirectory (outcome : StepOutcome) : Io Name β Unit :=
  performs outcome (fun fs => (.ok (), fs)) .other

def readFile (name : Name) (outcome : StepOutcome) : Io Name β (List β) :=
  performs outcome (fun fs => match fs.read name with
    | some bytes => (.ok bytes, fs)
    | none => (.error .notFound, fs)) .other

-- A probe that fails sees no file.
def pathExists {ε : Type} (name : Name) (outcome : StepOutcome) : Stoppable ε (FileSystem Name β) Bool :=
  ofOp fun fs => match outcome with
    | .succeeds => (.ok (fs.names name).isSome, fs)
    | .fails => (.ok false, fs)
    | .stops => (.error .stopped, fs)

-- Files that were not synced come back with any bytes.
def restart (garbage : Nat → List β) (fs : FileSystem Name β) : FileSystem Name β :=
  { fs with files := fs.files.mapIdx fun i f => if f.synced then f else { f with content := garbage i } }

section

variable [DecidableEq Name]

def pointTo (fs : FileSystem Name β) (name : Name) (file : Option Nat) : FileSystem Name β :=
  { fs with names := Function.update fs.names name file }

def createNew (name : Name) (outcome : StepOutcome) : Io Name β Nat :=
  performs outcome (fun fs =>
    if (fs.names name).isSome then (.error .alreadyExists, fs)
    else (.ok fs.files.length,
      pointTo { fs with files := fs.files ++ [⟨[], false⟩] } name (some fs.files.length))) .other

def hardLink (source target : Name) (outcome : StepOutcome) : Io Name β Unit :=
  performs outcome (fun fs => match fs.names source with
    | none => (.error .notFound, fs)
    | some file =>
      if (fs.names target).isSome then (.error .alreadyExists, fs)
      else (.ok (), fs.pointTo target (some file))) .other

def rename (source target : Name) (outcome : StepOutcome) : Io Name β Unit :=
  performs outcome (fun fs => match fs.names source with
    | none => (.error .notFound, fs)
    | some file => (.ok (), (fs.pointTo source none).pointTo target (some file))) .other

def remove (name : Name) (outcome : StepOutcome) : Io Name β Unit :=
  performs outcome (fun fs =>
    if (fs.names name).isSome then (.ok (), fs.pointTo name none) else (.error .notFound, fs)) .other

end

-- Nothing was written to the files there were, and one name leads where it led.
structure Undisturbed (base : List (FileState β)) (name : Name) (file : Option Nat)
    (fs : FileSystem Name β) : Prop where
  files : base <+: fs.files
  name : fs.names name = file

section

variable {base : List (FileState β)} {name other source : Name} {file : Option Nat} {i : Nat}
  {fs : FileSystem Name β} {outcome : StepOutcome} {bytes : List β} {written : Nat}

theorem undisturbed_refl (fs : FileSystem Name β) (name : Name) :
    Undisturbed fs.files name (fs.names name) fs :=
  ⟨List.prefix_refl _, rfl⟩

theorem Undisturbed.append (h : Undisturbed base name file fs) (f : FileState β) :
    Undisturbed base name file { fs with files := fs.files ++ [f] } :=
  ⟨h.files.trans (List.prefix_append _ _), h.name⟩

theorem Undisturbed.modify (h : Undisturbed base name file fs) (hi : base.length ≤ i)
    (f : FileState β → FileState β) :
    Undisturbed base name file { fs with files := fs.files.modify i f } := by
  refine ⟨List.prefix_iff_getElem?.mpr fun j hj => ?_, h.name⟩
  have hij : i ≠ j := by omega
  rw [List.getElem?_modify, List.prefix_iff_getElem?.mp h.files j hj]
  simp [hij]

theorem moves_writeAll (hi : base.length ≤ i) :
    Moves (keeps (Undisturbed base name file)) (writeAll i bytes outcome written) := by
  intro fs h
  cases outcome <;> exact h.modify hi _

theorem moves_syncFile (hi : base.length ≤ i) :
    Moves (keeps (Undisturbed base name file)) (syncFile i outcome) :=
  moves_performs fun _ h => h.modify hi _

theorem moves_syncDirectory {Q : FileSystem Name β → Prop} :
    Moves (keeps Q) (syncDirectory outcome) :=
  moves_performs fun _ h => h

theorem moves_pathExists {ε : Type} {Q : FileSystem Name β → Prop} :
    Moves (keeps Q) (pathExists (ε := ε) name outcome) := by
  intro fs h
  cases outcome <;> exact h

variable [DecidableEq Name]

theorem names_pointTo_self (target : Option Nat) : (fs.pointTo name target).names name = target := by
  simp [pointTo]

theorem names_pointTo_of_ne (hne : name ≠ other) (target : Option Nat) :
    (fs.pointTo other target).names name = fs.names name := by
  simp [pointTo, hne]

theorem Undisturbed.pointTo (h : Undisturbed base name file fs) (hne : name ≠ other)
    (target : Option Nat) : Undisturbed base name file (fs.pointTo other target) :=
  ⟨h.files, (names_pointTo_of_ne hne target).trans h.name⟩

theorem moves_createNew (hne : name ≠ other) :
    Moves (keeps (Undisturbed base name file)) (createNew (β := β) other outcome) := by
  refine moves_performs fun fs h => ?_
  split
  · exact h
  · exact (h.append _).pointTo hne _

theorem moves_remove (hne : name ≠ other) :
    Moves (keeps (Undisturbed base name file)) (remove (β := β) other outcome) := by
  refine moves_performs fun fs h => ?_
  split
  · exact h.pointTo hne _
  · exact h

end

end FileSystem

end Lib
