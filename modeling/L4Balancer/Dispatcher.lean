import Mathlib.Logic.Function.Basic
import L4Balancer.Machine

/-!
# Dispatchers

A dispatcher gives packets to servers. Each packet is one of a service, and may be one of a flow. A
flow can be *pinned* to a server: its packets go there as long as none of them comes too late.
Where a packet is not of such a flow, its service chooses a server and moves its own cursor, and
the flow, if there is one, is pinned to what was chosen.

* `machine`: the dispatcher as a machine;
* `answers_of_fresh`: the packets that a service chooses for get its choices in turn, whatever
  comes in between.
-/

variable {φ σ τ γ β : Type*}

/-- How the services choose, and for how long a flow stays pinned: `live t now` says whether one
    that was seen last at the time `t` still is. -/
structure Dispatcher (σ τ γ β : Type*) where
  choose : σ → γ → Option β × γ
  live : τ → τ → Bool

namespace Dispatcher

/-- A packet, at a time; it may open or close its flow. -/
structure Packet (φ σ τ : Type*) where
  service : σ
  flow : Option φ
  opens : Bool
  closes : Bool
  time : τ

/-- The servers the flows are pinned to, with the times they were seen last, and the cursors. -/
@[ext] structure State (φ σ τ γ β : Type*) where
  pinned : φ → Option (β × τ)
  cursor : σ → γ

variable [DecidableEq φ] [DecidableEq σ]

/-- The pins with another one for the flow, if there is one. -/
def State.pin (s : State φ σ τ γ β) (flow : Option φ) (x : Option (β × τ)) :
    φ → Option (β × τ) :=
  flow.elim s.pinned fun f => Function.update s.pinned f x

variable (D : Dispatcher σ τ γ β)

/-- The server that the flow of the packet is pinned to. A packet that opens a flow looks for none. -/
def found (s : State φ σ τ γ β) (p : Packet φ σ τ) : Option β :=
  if p.opens then none
  else (p.flow.bind s.pinned).bind fun x => if D.live x.2 p.time then some x.1 else none

/-- The machine of the dispatcher. A flow whose pin is too old loses it, also where the service
    has no server for it. -/
def machine : Machine (State φ σ τ γ β) (Packet φ σ τ) (Option β) where
  step p s :=
    match D.found s p with
    | some b => (some b, ⟨s.pin p.flow (if p.closes then none else some (b, p.time)), s.cursor⟩)
    | none =>
      let (b, c) := D.choose p.service (s.cursor p.service)
      (b, ⟨match b with
        | some b => s.pin p.flow (some (b, p.time))
        | none => if p.opens then s.pinned else s.pin p.flow none,
        Function.update s.cursor p.service c⟩)

variable {D} {s : State φ σ τ γ β} {p : Packet φ σ τ} {b : β}

theorem step_of_found (h : D.found s p = some b) : D.machine.step p s =
    (some b, ⟨s.pin p.flow (if p.closes then none else some (b, p.time)), s.cursor⟩) := by
  simp only [machine, h]

theorem step_of_not_found (h : D.found s p = none) : D.machine.step p s =
    ((D.choose p.service (s.cursor p.service)).1,
      ⟨match (D.choose p.service (s.cursor p.service)).1 with
        | some b => s.pin p.flow (some (b, p.time))
        | none => if p.opens then s.pinned else s.pin p.flow none,
        Function.update s.cursor p.service (D.choose p.service (s.cursor p.service)).2⟩) := by
  simp only [machine, h]

/-! ## Choices in turn -/

/-- The service chooses for the packet. -/
def fresh (D : Dispatcher σ τ γ β) (S : σ) (x : State φ σ τ γ β × Packet φ σ τ) : Bool :=
  x.2.service = S && (D.found x.1 x.2).isNone

/-- The choices of a service from a cursor on. -/
def turns (D : Dispatcher σ τ γ β) (S : σ) : ℕ → γ → List (Option β)
  | 0, _ => []
  | n + 1, c => (D.choose S c).1 :: D.turns S n (D.choose S c).2

theorem cursor_next_fresh {S : σ} (h : D.fresh S (s, p)) :
    D.machine.out p s = (D.choose S (s.cursor S)).1 ∧
      (D.machine.next p s).cursor S = (D.choose S (s.cursor S)).2 := by
  rw [fresh, Bool.and_eq_true, decide_eq_true_iff, Option.isNone_iff_eq_none] at h
  obtain ⟨rfl, hfound⟩ := h
  rw [Machine.out, Machine.next, step_of_not_found hfound]
  exact ⟨rfl, Function.update_self _ _ _⟩

theorem cursor_next {S : σ} (h : D.fresh S (s, p) = false) :
    (D.machine.next p s).cursor S = s.cursor S := by
  rw [Machine.next]
  cases hfound : D.found s p with
  | some b => rw [step_of_found hfound]
  | none =>
    rw [fresh, hfound, Option.isNone_none, Bool.and_true, decide_eq_false_iff_not] at h
    rw [step_of_not_found hfound]
    exact Function.update_of_ne (Ne.symm h) _ _

/-- The packets that a service chooses for get its choices in turn. -/
theorem answers_of_fresh (S : σ) (s : State φ σ τ γ β) (ps : List (Packet φ σ τ)) :
    (((D.machine.trace s ps).zip (D.machine.outs s ps)).filter fun x => D.fresh S x.1).map
        Prod.snd =
      D.turns S ((D.machine.trace s ps).countP (D.fresh S)) (s.cursor S) := by
  induction ps generalizing s with
  | nil => rfl
  | cons p ps ih =>
    rw [Machine.trace, Machine.outs, List.zip_cons_cons, List.filter_cons, List.countP_cons]
    -- a choice of this service is the next of its turns; all else leaves its cursor
    cases hfresh : D.fresh S (s, p) with
    | true =>
      obtain ⟨hout, hcursor⟩ := cursor_next_fresh hfresh
      rw [if_pos rfl, if_pos rfl, List.map_cons, ih, hcursor, hout, turns]
    | false =>
      rw [if_neg Bool.false_ne_true, if_neg Bool.false_ne_true, ih, cursor_next hfresh, Nat.add_zero]

end Dispatcher
