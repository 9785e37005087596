import Cobblestone.Lib.Pool
import Cobblestone.Lib.Trace

namespace Lib

inductive ClientPhase where
  | serving
  | closing (next : Nat)
  | draining
  | joining
  | closed
deriving DecidableEq, Repr

-- The thread that owns a pool: it submits commands and receives completions while it serves, and
-- on shutdown closes the senders, drains the channel and joins the workers.
structure Client (γ ε : Type*) (n : Nat) where
  pool : Pool γ ε n
  observed : Nat
  phase : ClientPhase
  accepted : List γ
  received : List ε

namespace Client

variable {γ ε κ : Type*} {n : Nat}

def start : Client γ ε n := ⟨.start, 0, .serving, [], []⟩

def submit (s : Client γ ε n) (i : Fin n) (c : γ) : Client γ ε n :=
  { s with pool := s.pool.push i c, accepted := s.accepted ++ [c] }

def receive (s : Client γ ε n) (rest : List (PoolEvent ε)) : PoolEvent ε → Client γ ε n
  | .completion e => { s with pool := s.pool.received rest, received := s.received ++ [e] }
  | .stopped => { s with pool := s.pool.received rest, observed := s.observed + 1 }

def closeSender (s : Client γ ε n) (i : Fin n) : Client γ ε n :=
  { s with pool := s.pool.closeSender i, phase := .closing (i + 1) }

def dropReceiver (s : Client γ ε n) : Client γ ε n :=
  { s with pool := s.pool.dropReceiver, phase := .joining }

def withPhase (s : Client γ ε n) (phase : ClientPhase) : Client γ ε n := { s with phase := phase }

def withPool (s : Client γ ε n) (pool : Pool γ ε n) : Client γ ε n := { s with pool := pool }

-- Draining ends after the last worker's farewell, or when all of them are gone.
def Drained (s : Client γ ε n) : Prop :=
  n ≤ s.observed ∨ (s.pool.channel = [] ∧ ∀ i, s.pool.phases i = .exited)

end Client

open Client

inductive ClientStep {γ ε : Type*} {n : Nat} (work : γ → ε → Prop) (route : γ → Fin n)
    (capacity : Nat) : Client γ ε n → Client γ ε n → Prop where
  | submit {s : Client γ ε n} (c : γ) (hphase : s.phase = .serving)
      (hs : s.pool.senders (route c) = true) : ClientStep work route capacity s (s.submit (route c) c)
  | receive {s : Client γ ε n} {e : PoolEvent ε} {rest : List (PoolEvent ε)}
      (hphase : s.phase = .serving ∨ s.phase = .draining) (hc : s.pool.channel = e :: rest) :
    ClientStep work route capacity s (s.receive rest e)
  | shutdown {s : Client γ ε n} (hphase : s.phase = .serving) :
    ClientStep work route capacity s (s.withPhase (.closing 0))
  | closeSender {s : Client γ ε n} {i : Fin n} (hphase : s.phase = .closing i) :
    ClientStep work route capacity s (s.closeSender i)
  | startDraining {s : Client γ ε n} (hphase : s.phase = .closing n) :
    ClientStep work route capacity s (s.withPhase .draining)
  | dropReceiver {s : Client γ ε n} (hphase : s.phase = .draining) (hd : s.Drained) :
    ClientStep work route capacity s s.dropReceiver
  | join {s : Client γ ε n} (hphase : s.phase = .joining) (hj : ∀ i, s.pool.phases i = .exited) :
    ClientStep work route capacity s (s.withPhase .closed)
  | worker {s : Client γ ε n} {pool : Pool γ ε n} (hw : WorkerStep work capacity s.pool pool) :
    ClientStep work route capacity s (s.withPool pool)

def ClientReachable {γ ε : Type*} {n : Nat} (work : γ → ε → Prop) (route : γ → Fin n)
    (capacity : Nat) : Client γ ε n → Prop :=
  Relation.ReflTransGen (ClientStep work route capacity) .start

def ClientPhase.attached : ClientPhase → Bool
  | .joining | .closed => false
  | _ => true

def ClientPhase.closedSenders (n : Nat) : ClientPhase → Nat
  | .serving => 0
  | .closing next => next
  | _ => n

def ClientPhase.shuttingDown : ClientPhase → Bool
  | .closing _ | .draining | .joining => true
  | _ => false

def ClientPhase.weight (n : Nat) : ClientPhase → Nat
  | .closing next => n - next + 3
  | .draining => 2
  | .joining => 1
  | _ => 0

structure ClientInv {γ ε : Type*} {n : Nat} (s : Client γ ε n) : Prop where
  tidy : s.phase.attached = true → s.pool.Tidy s.observed
  exited : s.phase.attached = false → ∀ i, s.pool.phases i = .exited ∧ s.pool.queues i = []
  emptied : s.phase.attached = false → s.pool.channel = []
  bounded : s.phase.closedSenders n ≤ n
  closed : ∀ i : Fin n, i.val < s.phase.closedSenders n → s.pool.senders i = false

-- Accepted on the lane is what was received on it, followed by what is under way.
structure Lane.Books {γ ε κ : Type*} {n : Nat} (l : Lane γ ε κ n) (s : Client γ ε n) : Prop where
  routed : l.Routed s.pool
  balance : s.accepted.filterMap l.command = s.received.filterMap l.event ++ l.transit s.pool

section

variable {γ ε κ : Type*} {n : Nat} {work : γ → ε → Prop} {route : γ → Fin n} {capacity : Nat}
  {s t : Client γ ε n} {l : Lane γ ε κ n}

theorem ClientInv.start : ClientInv (Client.start : Client γ ε n) where
  tidy _ := .start
  exited h := nomatch h
  emptied h := nomatch h
  bounded := Nat.zero_le n
  closed i hi := absurd hi (Nat.not_lt_zero i)

theorem ClientInv.attached_tidy (h : ClientInv s) {phase : ClientPhase} (hphase : s.phase = phase)
    (ha : phase.attached = true) : s.pool.Tidy s.observed :=
  h.tidy (by rw [hphase]; exact ha)

-- A state that is still attached to its workers is described by the pool and the closed senders.
theorem ClientInv.attached (ha : s.phase.attached = true) (ht : s.pool.Tidy s.observed)
    (hb : s.phase.closedSenders n ≤ n)
    (hc : ∀ i : Fin n, i.val < s.phase.closedSenders n → s.pool.senders i = false) : ClientInv s where
  tidy _ := ht
  exited h := by rw [ha] at h; cases h
  emptied h := by rw [ha] at h; cases h
  bounded := hb
  closed := hc

theorem ClientInv.drained_all (h : ClientInv s) (hphase : s.phase = .draining) (hd : s.Drained) :
    n ≤ s.observed := by
  rcases hd with ho | ⟨hc, hall⟩
  · exact ho
  · exact (h.attached_tidy hphase rfl).disconnected hc hall

theorem not_step_of_exited {pool : Pool γ ε n} {pool' : Pool γ ε n}
    (hexit : ∀ i, pool.phases i = .exited) : ¬ WorkerStep work capacity pool pool' := by
  intro hw
  cases hw with
  | take hp => rw [hexit] at hp; cases hp
  | emit hp => rw [hexit] at hp; cases hp
  | stop hp => rw [hexit] at hp; cases hp
  | announce hp => rw [hexit] at hp; cases hp
  | abandon hp => rcases hp with hp | ⟨e, hp⟩ <;> rw [hexit] at hp <;> cases hp

theorem ClientInv.step (h : ClientInv s) (hs : ClientStep work route capacity s t) :
    ClientInv t := by
  cases hs with
  | submit c hphase hopen =>
    exact ClientInv.attached (by simp [Client.submit, hphase, ClientPhase.attached])
      ((h.attached_tidy hphase rfl).push hopen) h.bounded h.closed
  | @receive e rest hphase hc =>
    have ha : s.phase.attached = true := by
      rcases hphase with hphase | hphase <;> rw [hphase] <;> rfl
    cases e with
    | completion e => exact ClientInv.attached ha ((h.tidy ha).received hc) h.bounded h.closed
    | stopped => exact ClientInv.attached ha ((h.tidy ha).observe hc) h.bounded h.closed
  | shutdown hphase =>
    exact ClientInv.attached rfl (h.attached_tidy hphase rfl) (Nat.zero_le n)
      fun i hi => absurd hi (Nat.not_lt_zero i)
  | @closeSender i hphase =>
    refine ClientInv.attached rfl ((h.attached_tidy hphase rfl).closeSender i) i.isLt fun j hj => ?_
    by_cases hji : j = i
    · rw [hji]
      exact Function.update_self ..
    · have hne : j.val ≠ i.val := fun he => hji (Fin.ext he)
      have hlt : j.val < i.val + 1 := hj
      refine (Function.update_of_ne hji ..).trans (h.closed j ?_)
      rw [hphase, ClientPhase.closedSenders]
      omega
  | startDraining hphase =>
    have hclosed := h.closed
    rw [hphase] at hclosed
    exact ClientInv.attached rfl (h.attached_tidy hphase rfl) (Nat.le_refl n) hclosed
  | dropReceiver hphase hd =>
    have ht := h.attached_tidy hphase rfl
    obtain ⟨hexit, hempty⟩ := ht.finished (h.drained_all hphase hd)
    have hclosed := h.closed
    rw [hphase] at hclosed
    exact ⟨fun hk => (nomatch hk), fun _ i => ⟨hexit i, (ht.drained i (.inr (hexit i))).1⟩,
      fun _ => hempty, Nat.le_refl n, hclosed⟩
  | join hphase hj =>
    have ha : s.phase.attached = false := by rw [hphase]; rfl
    have hclosed := h.closed
    rw [hphase] at hclosed
    exact ⟨fun hk => (nomatch hk), fun _ => h.exited ha, fun _ => h.emptied ha, Nat.le_refl n, hclosed⟩
  | worker hw =>
    cases ha : s.phase.attached with
    | true =>
      refine ClientInv.attached ha ((h.tidy ha).step hw) h.bounded fun i hi => ?_
      rw [withPool, Pool.senders_step hw]
      exact h.closed i hi
    | false => exact absurd hw (not_step_of_exited fun i => (h.exited ha i).1)

theorem Lane.Books.start : l.Books (Client.start : Client γ ε n) := ⟨.start, rfl⟩

theorem Lane.Books.step (h : l.Books s) (hinv : ClientInv s) (hw : l.Respects work)
    (hr : ∀ c, l.command c ≠ none → route c = l.worker)
    (hs : ClientStep work route capacity s t) : l.Books t := by
  cases hs with
  | submit c hphase hopen =>
    refine ⟨h.routed.push (hr c), ?_⟩
    rw [Client.submit, Lane.transit_push (hr c), List.filterMap_append, h.balance, List.append_assoc]
    cases hk : l.command c <;> simp [hk]
  | @receive e rest hphase hc =>
    have hb := h.balance
    rw [Lane.transit_received hc] at hb
    cases e with
    | completion e =>
      refine ⟨h.routed.received rest, ?_⟩
      rw [Client.receive, hb, List.filterMap_append, Lane.filterMap_event, List.append_assoc]
      rfl
    | stopped => exact ⟨h.routed.received rest, hb⟩
  | shutdown => exact ⟨h.routed, h.balance⟩
  | closeSender => exact ⟨h.routed.closeSender _, h.balance⟩
  | startDraining => exact ⟨h.routed, h.balance⟩
  | dropReceiver => exact ⟨h.routed.dropReceiver, h.balance⟩
  | join => exact ⟨h.routed, h.balance⟩
  | worker hstep =>
    cases ha : s.phase.attached with
    | true =>
      refine ⟨h.routed.step hw hstep, ?_⟩
      rw [withPool, Lane.transit_step h.routed hw (hinv.tidy ha).receiver hstep]
      exact h.balance
    | false => exact absurd hstep (not_step_of_exited fun i => (hinv.exited ha i).1)

theorem ClientReachable.inv (h : ClientReachable work route capacity s) : ClientInv s :=
  invariant_of_run ClientInv h .start fun _ _ hinv hs => hinv.step hs

theorem ClientReachable.books (h : ClientReachable work route capacity s) (hw : l.Respects work)
    (hr : ∀ c, l.command c ≠ none → route c = l.worker) : l.Books s := by
  have hboth : ClientInv s ∧ l.Books s :=
    invariant_of_run (fun s => ClientInv s ∧ l.Books s) h ⟨.start, .start⟩
      fun _ _ ⟨hinv, hb⟩ hs => ⟨hinv.step hs, hb.step hinv hw hr hs⟩
  exact hboth.2

-- After the last join everything accepted on a lane has been received on it.
theorem Lane.Books.closed (h : l.Books s) (hinv : ClientInv s) (hp : s.phase.attached = false) :
    s.received.filterMap l.event = s.accepted.filterMap l.command := by
  obtain ⟨hexit, hqueue⟩ := hinv.exited hp l.worker
  rw [h.balance]
  simp [Lane.transit, hinv.emptied hp, hexit, hqueue, Lane.phase]

theorem Lane.Books.quiescent (h : l.Books s) (hinv : ClientInv s) (hp : s.phase = .serving)
    (hwork : ∀ c, ∃ e, work c e) (hcap : 0 < capacity) (hc : s.pool.channel = [])
    (hq : ∀ pool, ¬ WorkerStep work capacity s.pool pool) :
    s.received.filterMap l.event = s.accepted.filterMap l.command := by
  have ht := hinv.attached_tidy hp rfl
  have hroom : s.pool.channel.length < capacity := by rw [hc]; exact hcap
  rw [h.balance, Pool.quiescent_transit hwork ht.receiver hroom hq hc ht l, List.append_nil]

def Client.weight (s : Client γ ε n) : Nat := s.pool.weight + s.phase.weight n

theorem weight_lt_of_pool (hp : t.phase = s.phase) (h : t.pool.weight < s.pool.weight) :
    t.weight < s.weight := by
  rw [Client.weight, Client.weight, hp]
  omega

theorem weight_lt_of_phase (hp : t.pool.weight = s.pool.weight)
    (h : t.phase.weight n < s.phase.weight n) : t.weight < s.weight := by
  rw [Client.weight, Client.weight, hp]
  omega

theorem shutdown_step (hphase : s.phase ≠ .serving) (hs : ClientStep work route capacity s t) :
    t.phase ≠ .serving ∧ t.weight < s.weight := by
  cases hs with
  | submit c h => exact absurd h hphase
  | @receive e rest h hc =>
    have hw := Pool.weight_received hc
    cases e with
    | completion e => exact ⟨hphase, weight_lt_of_pool rfl (by simp only [receive]; omega)⟩
    | stopped => exact ⟨hphase, weight_lt_of_pool rfl (by simp only [receive]; omega)⟩
  | shutdown h => exact absurd h hphase
  | @closeSender i h =>
    refine ⟨ClientPhase.noConfusion, weight_lt_of_phase rfl ?_⟩
    have hi := i.isLt
    rw [h, Client.closeSender]
    simp only [ClientPhase.weight]
    omega
  | startDraining h =>
    refine ⟨ClientPhase.noConfusion, weight_lt_of_phase rfl ?_⟩
    rw [h, withPhase]
    simp only [ClientPhase.weight]
    omega
  | dropReceiver h =>
    refine ⟨ClientPhase.noConfusion, weight_lt_of_phase rfl ?_⟩
    rw [h]
    exact Nat.lt_succ_self 1
  | join h =>
    refine ⟨ClientPhase.noConfusion, weight_lt_of_phase rfl ?_⟩
    rw [h]
    exact Nat.one_pos
  | worker hw => exact ⟨hphase, weight_lt_of_pool rfl (Pool.weight_step hw)⟩

-- A service whose steps are those of its client, or leave the client alone while it serves, cannot
-- shut down for ever.
theorem shutdown_acc {σ : Type*} {step : σ → σ → Prop} (client : σ → Client γ ε n)
    (hsim : ∀ a b, step a b → ((client a).phase = .serving ∧ client b = client a) ∨
      ClientStep work route capacity (client a) (client b)) {a : σ}
    (ha : (client a).phase ≠ .serving) : Acc (fun b a => step a b) a := by
  generalize hw : (client a).weight = w
  induction w using Nat.strong_induction_on generalizing a with
  | _ w ih =>
    refine ⟨a, fun b hb => ?_⟩
    rcases hsim a b hb with ⟨hserving, -⟩ | hstep
    · exact absurd hserving ha
    · obtain ⟨hnext, hlt⟩ := shutdown_step ha hstep
      exact ih _ (hw ▸ hlt) hnext rfl

-- What a client that shuts down can do next.
inductive ShutdownMove (work : γ → ε → Prop) (capacity : Nat) (s : Client γ ε n) : Prop where
  | closeSender (i : Fin n) (h : s.phase = .closing i)
  | startDraining (h : s.phase = .closing n)
  | receive (e : PoolEvent ε) (rest : List (PoolEvent ε)) (h : s.phase = .draining)
      (ho : s.observed < n) (hc : s.pool.channel = e :: rest)
  | dropReceiver (h : s.phase = .draining) (hd : s.Drained)
  | join (h : s.phase = .joining) (hj : ∀ i, s.pool.phases i = .exited)
  | worker (pool : Pool γ ε n) (hw : WorkerStep work capacity s.pool pool)

theorem ClientInv.shutdown_move (hinv : ClientInv s) (hp : s.phase.shuttingDown = true)
    (hwork : ∀ c, ∃ e, work c e) (hcap : 0 < capacity) : ShutdownMove work capacity s := by
  cases hphase : s.phase with
  | serving => rw [hphase] at hp; cases hp
  | closed => rw [hphase] at hp; cases hp
  | closing next =>
    have hb := hinv.bounded
    rw [hphase, ClientPhase.closedSenders] at hb
    rcases Nat.lt_or_eq_of_le hb with hlt | rfl
    · exact .closeSender ⟨next, hlt⟩ hphase
    · exact .startDraining hphase
  | draining =>
    have ht := hinv.attached_tidy hphase rfl
    by_cases ho : n ≤ s.observed
    · exact .dropReceiver hphase (.inl ho)
    cases hc : s.pool.channel with
    | cons e rest => exact .receive e rest hphase (Nat.lt_of_not_le ho) hc
    | nil =>
      by_cases hall : ∀ i, s.pool.phases i = .exited
      · exact .dropReceiver hphase (.inr ⟨hc, hall⟩)
      obtain ⟨i, hi⟩ := not_forall.mp hall
      have hclosed : s.pool.senders i = false := by
        apply hinv.closed i
        rw [hphase]
        exact i.isLt
      have hroom : s.pool.channel.length < capacity := by rw [hc]; exact hcap
      obtain ⟨pool, hw⟩ := Pool.step_of_busy hwork ht.receiver hroom hi fun _ => .inr hclosed
      exact .worker pool hw
  | joining => exact .join hphase fun i => (hinv.exited (by rw [hphase]; rfl) i).1

end

end Lib
