/-
StreamingAcn.Proofs.Arbitration.Changes — a run passes on what changes the data.

An arbiter compares every packet that it accepts with the slots of the one accepted before, and
passes it on if they differ. Over a run this means: the slots that are passed on are those that are
accepted, without repetitions of the ones before them, and the slots that the arbiter knows are
both the last ones accepted and the last ones passed on. Packets that are not accepted have no part
in this, however many of them come in between.

Definitions:

* `changesFrom`: the entries of a list that differ from the entry before them;
* `Arbiter.emitted`: the packets that a run passes on.

Main statements: `slots_emitted`, `lastSlots_after`, `lastSlots_eq_last_emitted`.
-/
import StreamingAcn.Proofs.Arbitration.Run

namespace StreamingAcn.Arbitration

open Delivery (Step)

/-! ## Changes in a list -/

section Changes

variable {α : Type} [DecidableEq α]

/-- The entries of a list that differ from the entry before them, where `before` stands in front. -/
def changesFrom (before : α) (l : List α) : List α :=
  (((before :: l).zip l).filter fun x => x.1 ≠ x.2).map (·.2)

theorem changesFrom_cons (before a : α) (l : List α) :
    changesFrom before (a :: l) = (if before = a then [] else [a]) ++ changesFrom a l := by
  by_cases h : before = a <;> simp [changesFrom, h]

/-- The last change leads to the last entry. -/
theorem getLast?_changesFrom (before : α) (l : List α) :
    (changesFrom before l).getLast?.getD before = l.getLast?.getD before := by
  induction l generalizing before with
  | nil => rfl
  | cons a rest ih =>
    rw [changesFrom_cons, List.getLast?_cons, Option.getD_some, ← ih a]
    split
    · next h => rw [h, List.nil_append]
    · rw [List.singleton_append, List.getLast?_cons, Option.getD_some]

end Changes

namespace Arbiter

/-- The packets that a run passes on because they change the data, oldest first. -/
def emitted (a : Arbiter) : List Step → List Packet
  | [] => []
  | s :: rest => (if a.verdict s = .emitted then s.packet else none).toList ++ (a.next s).emitted rest

/-- A packet that is accepted is passed on exactly if its slots differ from those known before. -/
theorem verdict_eq_emitted_iff {a : Arbiter} {s : Step} {p : Packet} (hp : s.packet = some p)
    (h : (a.verdict s).accepts = true) : a.verdict s = .emitted ↔ a.lastSlots ≠ p.slots := by
  obtain ⟨q, hq, hjudged⟩ := heard_of_accepted h
  obtain rfl : q = p := Option.some.inj ((packet_of_heardOn hq).1.symm.trans hp)
  rw [verdict_of_heard hq, judge_of_accepts hjudged]
  by_cases hd : a.lastSlots = q.slots <;> simp [hd]

/-- The slots that a run passes on are the changes among those that it accepts. -/
theorem slots_emitted (a : Arbiter) (steps : List Step) :
    (a.emitted steps).map Packet.slots =
      changesFrom a.lastSlots ((a.accepted steps).map (·.1.slots)) := by
  induction steps generalizing a with
  | nil => rfl
  | cons s rest ih =>
    rw [emitted, accepted, List.map_append, List.map_append, ih]
    by_cases hv : (a.verdict s).accepts = true
    · obtain ⟨p, hp, -, hslots, -⟩ := next_last_of_accepted hv
      have hemitted := verdict_eq_emitted_iff hp hv
      rw [hslots, if_pos hv, hp, Option.map_some, Option.toList_some, List.map_singleton,
        List.singleton_append, changesFrom_cons]
      by_cases hd : a.lastSlots = p.slots <;> simp [hemitted, hd]
    · have hrefused : (a.verdict s).accepts = false := by simpa using hv
      have hnot : a.verdict s ≠ .emitted := fun he => by simp [he, Verdict.accepts] at hrefused
      rw [(next_last_of_refused hrefused).2.1, if_neg hnot, if_neg hv]
      rfl

/-- An arbiter knows the slots that were accepted last. -/
theorem lastSlots_after (a : Arbiter) (steps : List Step) :
    (a.after steps).lastSlots =
      ((a.accepted steps).map (·.1.slots)).getLast?.getD a.lastSlots := by
  have hlast := a.after_last steps
  rw [List.getLast?_map]
  cases h : (a.accepted steps).getLast? with
  | none =>
    rw [h] at hlast
    exact hlast.2.1
  | some x =>
    rw [h] at hlast
    exact hlast.2.1

/-- The slots that an arbiter knows are also those that were passed on last. -/
theorem lastSlots_eq_last_emitted (a : Arbiter) (steps : List Step) :
    (a.after steps).lastSlots = ((a.emitted steps).map Packet.slots).getLast?.getD a.lastSlots := by
  rw [slots_emitted, getLast?_changesFrom, lastSlots_after]

end Arbiter

end StreamingAcn.Arbitration
