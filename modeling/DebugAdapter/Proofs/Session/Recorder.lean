import DebugAdapter.Proofs.Session.Run

/-!
# What is kept beside a run

Traces, journals and other records go along with a system that runs, and leave it alone. `Recorder`
says what they have in common. What the client and each step of either side keep of a record holds
after every run (`Recorder.run_keeps`).
-/

namespace DebugAdapter

variable {σ τ ρ : Type} {host : Host σ τ}

/-- A record follows the system move by move. Where a side waits there is nothing to record. -/
structure Recorder (host : Host σ τ) (ρ : Type) where
  sys : ρ → System σ τ
  play : ρ → Move → ρ
  sys_play : ∀ r move, sys (play r move) = (sys r).play host move
  play_waiting : ∀ {r side}, (sys r).step host side = none → play r (.step side) = r

namespace Recorder

def run (R : Recorder host ρ) (moves : List Move) (r : ρ) : ρ := moves.foldl R.play r

variable (R : Recorder host ρ) {P : ρ → Prop} {r : ρ}

theorem run_append (moves more : List Move) (r : ρ) :
    R.run (moves ++ more) r = R.run more (R.run moves r) :=
  List.foldl_append

theorem sys_run (moves : List Move) (r : ρ) : R.sys (R.run moves r) = (R.sys r).run host moves :=
  (List.foldl_hom R.sys fun r move => (R.sys_play r move).symm).symm

/-- A side that waits keeps everything, so that only real steps are left to look at. -/
theorem play_keeps (arrive : ∀ {r} arrivals, P r → P (R.play r (.arrive arrivals)))
    (hangUp : ∀ {r}, P r → P (R.play r .hangUp))
    (session : ∀ {r}, P r → System.SessionStep host (R.sys r) (R.sys (R.play r (.step .session))) →
      P (R.play r (.step .session)))
    (thread : ∀ {r}, P r → System.ThreadStep host (R.sys r) (R.sys (R.play r (.step .thread))) →
      P (R.play r (.step .thread)))
    (h : P r) (move : Move) : P (R.play r move) := by
  cases move with
  | arrive arrivals => exact arrive arrivals h
  | hangUp => exact hangUp h
  | step side =>
    cases hstep : (R.sys r).step host side with
    | none => rwa [R.play_waiting hstep]
    | some next =>
      have hnext : R.sys (R.play r (.step side)) = next := by
        rw [R.sys_play, System.play_step hstep]
      subst hnext
      cases side with
      | session => exact session h (System.sessionStep_of_step hstep)
      | thread => exact thread h (System.threadStep_of_step hstep)

theorem run_induction (hplay : ∀ {r} move, P r → P (R.play r move)) (h : P r)
    (moves : List Move) : P (R.run moves r) :=
  List.foldlRecOn moves R.play h fun _ hr move _ => hplay move hr

theorem run_keeps (arrive : ∀ {r} arrivals, P r → P (R.play r (.arrive arrivals)))
    (hangUp : ∀ {r}, P r → P (R.play r .hangUp))
    (session : ∀ {r}, P r → System.SessionStep host (R.sys r) (R.sys (R.play r (.step .session))) →
      P (R.play r (.step .session)))
    (thread : ∀ {r}, P r → System.ThreadStep host (R.sys r) (R.sys (R.play r (.step .thread))) →
      P (R.play r (.step .thread)))
    (h : P r) (moves : List Move) : P (R.run moves r) :=
  R.run_induction (P := P) (fun move h => R.play_keeps arrive hangUp session thread h move) h moves

theorem run_related {σ' τ' ρ' : Type} {host' : Host σ' τ'} (R' : Recorder host' ρ')
    {Q : ρ → ρ' → Prop} {r' : ρ'}
    (hplay : ∀ {r r'} move, Q r r' → Q (R.play r move) (R'.play r' move)) (h : Q r r')
    (moves : List Move) : Q (R.run moves r) (R'.run moves r') :=
  List.foldl_rel h fun move _ _ _ hr => hplay move hr

end Recorder

namespace System

def recorder (host : Host σ τ) : Recorder host (System σ τ) where
  sys sys := sys
  play := play host
  sys_play _ _ := rfl
  play_waiting := play_waiting

theorem run_append (sys : System σ τ) (moves more : List Move) :
    sys.run host (moves ++ more) = (sys.run host moves).run host more :=
  (recorder host).run_append moves more sys

end System

end DebugAdapter
