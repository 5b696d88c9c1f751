/-
StreamingAcn.Proofs.Arbitration.Indifference — what a refused packet leaves behind.

An arbiter looks at the number and the slots of a packet only once its source has won. So two runs
that differ in the numbers and slots of the packets that lose, and in the names, synchronization
addresses and options of any, are the same run to it: every verdict is the same, and so is the
arbiter at the end, which is why a loser that wins later on has gained nothing by what it sent.

Definitions:

* `Verdict.ignoresContent`: the verdicts that are given without a look at number and slots;
* `PacketsAgree`, `StepsAgree`: what a verdict cannot tell apart;
* `Alike`: two runs whose steps agree, by the verdicts on the first run;
* `Arbiter.verdicts`: the verdicts on a run.

Main statements:

* `Arbiter.handle_eq_of_agrees`: one step;
* `same_verdicts_of_alike`: a whole run.
-/
import StreamingAcn.Proofs.Arbitration.Run

namespace StreamingAcn.Arbitration

open Delivery (Step)

/-- Whether a verdict is given without a look at the number and the slots of the packet. -/
def Verdict.ignoresContent : Verdict → Bool
  | .conflict | .dropped | .timedOut | .idle => true
  | .emitted | .unchanged | .stale => false

/-- Two packets of one source, of one credit and for one universe, with the same number and slots
unless the verdict on them ignores these. Name, synchronization address and options are free. -/
structure PacketsAgree (v : Verdict) (p q : Packet) : Prop where
  universeId : q.universeId = p.universeId
  cid : q.cid = p.cid
  priority : q.priority = p.priority
  startCode : q.startCode = p.startCode
  content : v.ignoresContent = false → q.sequenceNumber = p.sequenceNumber ∧ q.slots = p.slots

/-- Two steps at one time that bring no packet, or two packets that agree. -/
structure StepsAgree (v : Verdict) (s t : Step) : Prop where
  time : t.time = s.time
  packet : Option.Rel (PacketsAgree v) s.packet t.packet

/-- Two runs whose steps agree one by one, each under the verdict that the first run has on it. -/
inductive Alike : Arbiter → List Step → List Step → Prop
  | nil {a : Arbiter} : Alike a [] []
  | cons {a : Arbiter} {s t : Step} {ss ts : List Step} (head : StepsAgree (a.verdict s) s t)
      (tail : Alike (a.next s) ss ts) : Alike a (s :: ss) (t :: ts)

namespace Arbiter

variable {a : Arbiter} {p q : Packet} {now : Nat}

/-- Who is heard, and with what credit, is all that a packet changes in the table of sources. -/
theorem hear_eq (cid : q.cid = p.cid) (priority : q.priority = p.priority) :
    a.hear q now = a.hear p now := by
  rw [hear, hear, cid, priority]

/-- A judgement reads the source, the priority, the number and the slots of a packet. -/
theorem judge_congr (cid : q.cid = p.cid) (priority : q.priority = p.priority)
    (number : q.sequenceNumber = p.sequenceNumber) (slots : q.slots = p.slots) :
    a.judge q now = a.judge p now := by
  have hstale : (a.hear p now).isStale q = (a.hear p now).isStale p := by
    rw [isStale, isStale, number]
  have haccept : (a.hear p now).accept q now = (a.hear p now).accept p now := by
    rw [accept, accept, number, slots]
  rw [judge, judge, hear_eq cid priority, cid, slots, hstale, haccept]

/-- Packets that agree under the verdict on the first are judged alike. -/
theorem judge_eq_of_agrees (h : PacketsAgree (a.judge p now).1 p q) :
    a.judge q now = a.judge p now := by
  have hheard : a.hear q now = a.hear p now := hear_eq h.cid h.priority
  rcases a.judge_cases p now with ⟨hlen, hp⟩ | ⟨hlen, hmem, hp⟩ | ⟨-, -, hp⟩ | ⟨-, -, hp⟩
  · -- Several sources lead, whoever sent the packet and whatever is in it.
    rw [hp, judge, hheard, if_pos hlen]
  · rw [← h.cid] at hmem
    rw [hp, judge, hheard, if_neg (Nat.not_lt.2 hlen), if_pos hmem]
  · obtain ⟨hnumber, hslots⟩ := h.content (by rw [hp]; rfl)
    exact judge_congr h.cid h.priority hnumber hslots
  · obtain ⟨hnumber, hslots⟩ := h.content (by rw [hp]; dsimp only; split <;> rfl)
    exact judge_congr h.cid h.priority hnumber hslots

/-- Steps that agree under the verdict on the first have the same verdict and the same arbiter
after them. -/
theorem handle_eq_of_agrees {s t : Step} (h : StepsAgree (a.verdict s) s t) :
    a.verdict t = a.verdict s ∧ a.next t = a.next s := by
  obtain ⟨packet, now⟩ := s
  obtain ⟨packet', now'⟩ := t
  obtain ⟨rfl, hpacket⟩ := h
  cases hpacket with
  | none => exact ⟨rfl, rfl⟩
  | @some p q hpq =>
    have hconcerns : a.concerns q = a.concerns p := by
      rw [concerns, concerns, hpq.universeId, hpq.startCode]
    suffices hhandle : a.handle (some q) now' = a.handle (some p) now' from
      ⟨congrArg Prod.fst hhandle, congrArg Prod.snd hhandle⟩
    cases hp : a.concerns p with
    | false => simp only [handle, hconcerns, hp, Bool.false_eq_true, if_false]
    | true =>
      have hverdict : a.verdict ⟨some p, now'⟩ = (a.judge p now').1 := by
        simp only [verdict, handle, hp, if_true]
      simp only [handle, hconcerns, hp, if_true]
      exact judge_eq_of_agrees (hverdict ▸ hpq)

/-- The verdicts on some steps, oldest first. -/
def verdicts (a : Arbiter) : List Step → List Verdict
  | [] => []
  | s :: rest => a.verdict s :: (a.next s).verdicts rest

theorem verdicts_append (a : Arbiter) (xs ys : List Step) :
    a.verdicts (xs ++ ys) = a.verdicts xs ++ (a.after xs).verdicts ys := by
  induction xs generalizing a with
  | nil => rfl
  | cons s rest ih => rw [List.cons_append, verdicts, verdicts, ih, List.cons_append, after_cons]

end Arbiter

/-- The numbers and slots of the packets that lose or tie, and the names, synchronization addresses
and options of all packets, have no part in any verdict or in the arbiter at the end: who wins, and
what is accepted from whoever wins later, is as if the losers had sent other data. -/
theorem same_verdicts_of_alike {a : Arbiter} {ss ts : List Step} (alike : Alike a ss ts) :
    a.verdicts ts = a.verdicts ss ∧ a.after ts = a.after ss := by
  induction alike with
  | nil => exact ⟨rfl, rfl⟩
  | @cons a s t ss ts head _ ih =>
    obtain ⟨hverdict, hnext⟩ := Arbiter.handle_eq_of_agrees head
    obtain ⟨hverdicts, hafter⟩ := ih
    rw [Arbiter.verdicts, Arbiter.verdicts, Arbiter.after_cons, Arbiter.after_cons, hverdict, hnext,
      hverdicts, hafter]
    exact ⟨rfl, rfl⟩

/-- A second source loses, then ties, then is the only one left. What it sent while it lost and tied
differs between the two runs, and it is accepted in both of them. -/
theorem same_verdicts_of_loser_that_wins :
    let first : Packet := { universeId := 1, sequenceNumber := 10, slots := [1] }
    let other : Packet :=
      { universeId := 1, cid := ⟨List.replicate 16 1, by decide⟩, sequenceNumber := 11,
        slots := [2] }
    let ss : List Step := [⟨some first, 0⟩, ⟨some { other with priority := 50 }, 1⟩,
      ⟨some other, 2⟩, ⟨none, 3⟩, ⟨some other, 2600⟩]
    let ts : List Step := [⟨some { first with sourceName := "desk" }, 0⟩,
      ⟨some { other with priority := 50, sequenceNumber := 200, slots := [], slots_le := by decide },
        1⟩,
      ⟨some { other with sequenceNumber := 9, options := 0x40 }, 2⟩, ⟨none, 3⟩,
      ⟨some { other with syncAddress := 7 }, 2600⟩]
    let fresh := Arbiter.start 1 2500 0
    Alike fresh ss ts ∧ fresh.verdicts ss = [.emitted, .dropped, .conflict, .idle, .emitted] ∧
      fresh.verdicts ts = fresh.verdicts ss ∧ fresh.after ts = fresh.after ss := by
  intro first other ss ts fresh
  have hverdicts : fresh.verdicts ss = [.emitted, .dropped, .conflict, .idle, .emitted] := by
    decide +kernel
  have alike : Alike fresh ss ts := by
    obtain ⟨-, hdropped, hconflict, -⟩ : _ ∧ _ ∧ _ ∧ _ ∧ _ := by
      simpa only [Arbiter.verdicts, ss, List.cons.injEq, and_true] using hverdicts
    refine .cons ⟨rfl, .some ⟨rfl, rfl, rfl, rfl, fun _ => ⟨rfl, rfl⟩⟩⟩ ?_
    refine .cons ⟨rfl, .some ⟨rfl, rfl, rfl, rfl, fun hv => ?_⟩⟩ ?_
    · rw [hdropped] at hv
      cases hv
    refine .cons ⟨rfl, .some ⟨rfl, rfl, rfl, rfl, fun hv => ?_⟩⟩ ?_
    · rw [hconflict] at hv
      cases hv
    refine .cons ⟨rfl, .none⟩ (.cons ⟨rfl, .some ⟨rfl, rfl, rfl, rfl, fun _ => ⟨rfl, rfl⟩⟩⟩ .nil)
  exact ⟨alike, hverdicts, same_verdicts_of_alike alike⟩

end StreamingAcn.Arbitration
