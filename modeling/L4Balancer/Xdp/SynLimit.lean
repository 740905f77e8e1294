import L4Balancer.Xdp.Handler

/-!
# The limit of SYNs

The filter is meant to let through at most as many SYNs of a source in a window as the
threshold says, so that an interval as long as a window meets at most twice as many
(`SynLimit`). But `balancer_handler` asks the filter about every TCP packet except the
pure SYNs, which it never drops. So the limit holds exactly where the sources keep to it
themselves (`syn_limit_iff`).
-/

namespace L4Balancer

open Bpf

variable {cpus : ℕ} {s : XdpState cpus} {as : List (Arrival cpus)}

/-- The frame is a pure SYN over IPv4 of the source `src`. -/
def Arrival.isSynOf (src : BitVec 32) (a : Arrival cpus) : Bool :=
  match a.bytes.headers with
  | some (.tcpV4 off) => (a.bytes.tcpHdr off).pureSyn && a.bytes.saddrV4 == src
  | _ => false

/-- The frame arrives in the interval of the length of a window that begins at `t`. -/
def Arrival.within (t : ℕ) (a : Arrival cpus) : Bool :=
  t ≤ a.ctx.now.toNat && a.ctx.now.toNat ≤ t + DDOS_WINDOW_NS.toNat

/-- Twice the threshold of SYNs. -/
def XdpState.synBound (s : XdpState cpus) : ℕ := 2 * (s.ddos.ddosCfg.get 0).synThreshold.toNat

/-- How many SYNs of the source the run lets through in the interval that begins at `t`. -/
def synsPassed (s : XdpState cpus) (as : List (Arrival cpus)) (src : BitVec 32) (t : ℕ) : ℕ :=
  ((xdp cpus).trace s as).countP fun x =>
    x.2.isSynOf src && x.2.within t && ((xdp cpus).out x.2 x.1).1 != .drop

/-- In every interval of the length of a window, the run lets through at most twice the threshold of
    the SYNs of each source. -/
def SynLimit (s : XdpState cpus) (as : List (Arrival cpus)) : Prop :=
  ∀ src t, synsPassed s as src t ≤ s.synBound

/-- A pure SYN is not dropped. -/
theorem out_ne_drop {src : BitVec 32} {a : Arrival cpus} (ha : a.isSynOf src) (s : XdpState cpus) :
    ((xdp cpus).out a s).1 ≠ .drop := by
  have hs := XdpStep.of_next a s
  rw [Arrival.isSynOf] at ha
  generalize (xdp cpus).out a s = r at hs ⊢
  obtain ⟨verdict, q⟩ := r
  generalize ((xdp cpus).next a s).maps = m' at hs
  dsimp only at hs ⊢
  cases hs with
  | filtered hh hsyn _ =>
    rw [hh] at ha
    dsimp only at ha
    rw [hsyn, Bool.false_and] at ha
    cases ha
  | ignored | unmatched | forwarded => decide

/-- All SYNs pass. -/
theorem synsPassed_eq (s : XdpState cpus) (as : List (Arrival cpus)) (src : BitVec 32) (t : ℕ) :
    synsPassed s as src t = as.countP fun a => a.isSynOf src && a.within t := by
  have has : as.countP (fun a => a.isSynOf src && a.within t) =
      (((xdp cpus).trace s as).map Prod.snd).countP fun a => a.isSynOf src && a.within t := by
    rw [(xdp cpus).map_snd_trace s as]
  rw [synsPassed, has, List.countP_map]
  refine List.countP_congr fun x _ => ?_
  cases hsyn : x.2.isSynOf src with
  | false => simp [hsyn]
  | true =>
    have hne := out_ne_drop hsyn x.1
    simp [hsyn, hne]

/-- The limit of SYNs. Whatever the filter is set to, a run lets through at most twice the threshold
    of the SYNs of every source in every interval of the length of a window, exactly if no source
    sends more of them. -/
theorem syn_limit_iff (s : XdpState cpus) (as : List (Arrival cpus)) :
    SynLimit s as ↔ ∀ src t, as.countP (fun a => a.isSynOf src && a.within t) ≤ s.synBound :=
  forall₂_congr fun src t => by rw [synsPassed_eq]

/-- One SYN is the limit. -/
def demoFilter : DdosMaps := { DdosMaps.fresh with ddosCfg := .const ⟨1, 0, 0, 0⟩ }

/-- Of three SYNs at one time that only two may pass, three pass. -/
theorem syn_limit_exceeded :
    ¬SynLimit ⟨demoMaps BALANCER_RR, demoFilter⟩ (List.replicate 3 ⟨⟨0, 0⟩, demoSyn, []⟩) := by
  intro h
  have hcount := h 0 0
  rw [synsPassed_eq] at hcount
  exact absurd hcount (by decide +kernel)

end L4Balancer
