/-
StreamingAcn.Proofs.Roster.Lifecycle — what the callers of a roster see of it.

To its callers a roster is a register of active universes that is open until it is closed for good.
A request to activate a universe is checked in one order, number first, and whatever it fails on,
nothing has changed. Callers get in between each other, and in between them and after them the
workers go on by themselves; none of that can be told from the answers.

Definitions:

* `Register`: the register, and what it answers;
* `Roster.Section`: what a caller does at once, while no other gets in between;
* `Roster.Goes`, `Roster.Settled`: what happens outside of that, and when it is over;
* `Roster.registry`: a roster whose callers get in between each other.

Main statement: `behaves_as_register`.
-/
import StreamingAcn.Proofs.Receiver.Course
import StreamingAcn.Proofs.Roster.Crew
import StreamingAcn.Proofs.Roster.Isolation
import Mathlib.Data.Finset.Basic

namespace StreamingAcn

open Delivery (Worker)
open Relation (ReflTransGen)

namespace Roster

/-- What a caller of a roster does at once, while no other caller gets in between. -/
inductive Section
  | activate (u : UniverseId) (now : Nat) (join : Except ReceiverError Unit)
  | deactivate (u : UniverseId)
  /-- The first half of a deactivation: the worker is taken out and does not know it yet. -/
  | detach (u : UniverseId)
  | dispatch (packet : Option Packet) (now : Nat)
  /-- One worker is offered what is left of a step that is being dispatched. -/
  | visit (u : UniverseId) (packet : Option Packet) (now : Nat)
  | shutdown

/-- What a caller is answered. -/
inductive Reply
  | activation (result : Except ReceiverError Bool) (joins : Nat)
  | deactivation (wasActive : Bool)
  | dispatch (isMatched : Bool)

end Roster

open Roster (Reply Section)

/-! ## The register -/

/-- The universes that are active, until nothing is ever active again. -/
inductive Register
  | opened (universes : Finset UniverseId)
  | closed

namespace Register

def universes : Register → Finset UniverseId
  | .opened universes => universes
  | .closed => ∅

/-- What is in the way of activating a universe, in the order in which it is looked for. -/
def obstacle? (g : Register) (u : UniverseId) : Option Activation :=
  if u.toNat < 1 ∨ 63999 < u.toNat then some (.refused (.invalidUniverse u))
  else
    match g with
    | .closed => some (.refused .closed)
    | .opened universes => if u ∈ universes then some .alreadyActive else none

/-- The answer to a request to activate a universe, and the register after it. The group of the
universe is joined only where nothing else is in the way, and `join` is what that gives. -/
def activate (g : Register) (u : UniverseId) (join : Except ReceiverError Unit) :
    Reply × Register :=
  if u.toNat < 1 ∨ 63999 < u.toNat then (.activation (.error (.invalidUniverse u)) 0, g)
  else
    match g with
    | .closed => (.activation (.error .closed) 0, g)
    | .opened universes =>
      if u ∈ universes then (.activation (.ok false) 0, g)
      else
        match join with
        | .error e => (.activation (.error e) 1, g)
        | .ok () => (.activation (.ok true) 1, .opened (insert u universes))

def deactivate (g : Register) (u : UniverseId) : Register :=
  match g with
  | .closed => .closed
  | .opened universes => .opened (universes.erase u)

/-- The register after what a caller does. -/
def enter (g : Register) : Section → Register
  | .activate u _ join => (g.activate u join).2
  | .deactivate u | .detach u => g.deactivate u
  | .dispatch _ _ | .visit _ _ _ => g
  | .shutdown => .closed

def reply? (g : Register) : Section → Option Reply
  | .activate u _ join => some (g.activate u join).1
  | .deactivate u | .detach u => some (.deactivation (decide (u ∈ g.universes)))
  | .dispatch packet _ =>
    some (.dispatch (packet.any fun p => decide (p.universeId ∈ g.universes)))
  | .visit _ _ _ | .shutdown => none

/-- The register after what some callers do one after the other. -/
def after (g : Register) (sections : List Section) : Register := sections.foldl enter g

/-- What they are answered. -/
def replies (g : Register) : List Section → List Reply
  | [] => []
  | s :: rest => (g.reply? s).toList ++ (g.enter s).replies rest

/-- A closed register stays closed. -/
theorem after_closed (sections : List Section) : Register.closed.after sections = .closed := by
  induction sections with
  | nil => rfl
  | cons s rest ih =>
    have hs : Register.closed.enter s = .closed := by
      cases s with
      | activate u now join =>
        simp only [enter, activate]
        split <;> rfl
      | deactivate u => rfl
      | detach u => rfl
      | dispatch packet now => rfl
      | visit u packet now => rfl
      | shutdown => rfl
    rw [after, List.foldl_cons, hs]
    exact ih

end Register

namespace Roster

/-! ## Callers that get in between each other -/

/-- The roster once the worker of a universe was taken out, before the worker knows of it. -/
def detach (r : Roster) (u : UniverseId) : Roster :=
  match r.workers.find? u with
  | none => r
  | some w => { r with workers := r.workers.erase u, leaving := r.leaving ++ [w] }

/-- The second half of a deactivation, in two steps: the worker that was taken out is told to
discard what it has queued, and the caller lets go of it. -/
inductive Parts (r : Roster) : Roster → Prop
  | tells {front back : List Worker} {w : Worker} (hl : r.leaving = front ++ w :: back)
      (hheld : w.isHeld = true) (hactive : w.isActive = true) :
      Parts r { r with leaving := front ++ w.deactivate :: back }
  | letsGo {front back : List Worker} {w : Worker} (hl : r.leaving = front ++ w :: back)
      (hheld : w.isHeld = true) (hactive : w.isActive = false) :
      Parts r { r with leaving := front ++ w.release :: back }

/-- What happens outside of the sections, by itself or because callers go on. -/
def Goes (r r' : Roster) : Prop := Stir r r' ∨ Parts r r'

/-- Whether nothing of that happens any more. -/
def Settled (r : Roster) : Prop := ∀ r', ¬ Goes r r'

/-- The two halves of a deactivation make a whole one where nothing gets in between. -/
theorem goes_detach {r : Roster} {u : UniverseId} {w : Worker} (hw : r.workers.find? u = some w)
    (hheld : w.isHeld = true) (hactive : w.isActive = true) :
    ReflTransGen Goes (r.detach u) (r.deactivate u) := by
  have htells : Goes (r.detach u)
      { r with workers := r.workers.erase u, leaving := r.leaving ++ [w.deactivate] } := by
    rw [detach, hw]
    exact .inr (.tells rfl hheld hactive)
  have hgoes : Goes
      { r with workers := r.workers.erase u, leaving := r.leaving ++ [w.deactivate] }
      (r.deactivate u) := by
    rw [deactivate, hw]
    exact .inr (.letsGo rfl hheld rfl)
  exact .head htells (.single hgoes)

def enter (r : Roster) : Section → Roster
  | .activate u now join => r.activate u now join
  | .deactivate u => r.deactivate u
  | .detach u => r.detach u
  | .dispatch packet now => r.dispatch packet now
  | .visit u packet now => (r.offerTo u packet now).2
  | .shutdown => r.shutdown

def reply? (r : Roster) : Section → Option Reply
  | .activate u _ join =>
    let (outcome, joins) := (r.request u (counted join)).run 0
    some (.activation outcome.result joins)
  | .deactivate u | .detach u => some (.deactivation (r.isActive u))
  | .dispatch packet _ => some (.dispatch (r.isMatched packet))
  | .visit _ _ _ | .shutdown => none

/-- A roster whose callers get in between each other. -/
def registry : System Roster Section Reply := ⟨Goes, enter, reply?⟩

/-! ## The roster and the register -/

/-- A roster is what the register says. -/
structure Agrees (r : Roster) (g : Register) : Prop where
  isClosed : r.isClosed = true ↔ g = .closed
  isActive : ∀ u, r.isActive u = true ↔ u ∈ g.universes

variable {r r' : Roster} {g : Register}

theorem agrees_start (timeout capacity : Nat) :
    Agrees (Roster.start timeout capacity) (.opened ∅) where
  isClosed := by simp [Roster.start]
  isActive u := by simp [Roster.start, Roster.isActive, Directory.contains, Register.universes]

theorem Agrees.of_same (h : Agrees r g) (hclosed : r'.isClosed = r.isClosed)
    (hactive : ∀ u, r'.isActive u = r.isActive u) : Agrees r' g where
  isClosed := by rw [hclosed, h.isClosed]
  isActive u := by rw [hactive, h.isActive]

/-- Callers cannot tell what happens outside of the sections. -/
theorem Agrees.goes (h : Agrees r g) (hg : Goes r r') : Agrees r' g := by
  rcases hg with hs | hp
  · obtain ⟨-, hclosed, hactive⟩ := settings_stir hs
    exact h.of_same hclosed hactive
  · cases hp with
    | tells => exact h.of_same rfl fun _ => rfl
    | letsGo => exact h.of_same rfl fun _ => rfl

theorem Agrees.going (h : Agrees r g) (hg : ReflTransGen Goes r r') : Agrees r' g := by
  induction hg with
  | refl => exact h
  | tail _ hg ih => exact ih.goes hg

/-- The number of a universe is refused where it is out of range. -/
theorem check_eq (u : UniverseId) : UniverseId.check u =
    if u.toNat < 1 ∨ 63999 < u.toNat then .error (.invalidUniverse u) else .ok () := by
  have hdata : UniverseId.isData u = true ↔ ¬ (u.toNat < 1 ∨ 63999 < u.toNat) := by
    rw [UniverseId.isData_iff]
    omega
  rw [UniverseId.check]
  by_cases hu : UniverseId.isData u = true
  · rw [if_pos hu, if_neg (hdata.1 hu)]
  · rw [if_neg hu, if_pos (not_not.1 fun h => hu (hdata.2 h))]

/-- An activation adds the one universe. -/
theorem Agrees.activated {universes : Finset UniverseId} (h : Agrees r (.opened universes))
    {u : UniverseId} {now : Nat} {join : Except ReceiverError Unit}
    (hact : r.activation u join = .activated) :
    Agrees (r.activate u now join) (.opened (insert u universes)) := by
  have hroster : r.activate u now join =
      { r with workers := r.workers.insert u (Worker.start u r.timeout now) } := by
    rw [activate, hact]
  rw [hroster]
  refine ⟨by simp [(activation_eq_activated hact).2.1], ?_⟩
  intro k
  rw [Roster.isActive, Directory.contains, Directory.find?_insert, Register.universes,
    Finset.mem_insert]
  split
  · next hk => simp [hk]
  · next hk =>
    rw [or_iff_right (Ne.symm hk)]
    exact h.isActive k

/-- What is in the way of activating a universe of a roster is what is in its way in the register. -/
theorem Agrees.obstacle?_eq (h : Agrees r g) (u : UniverseId) :
    r.obstacle? u = g.obstacle? u := by
  rw [obstacle?, check_eq]
  unfold Register.obstacle?
  by_cases hrange : u.toNat < 1 ∨ 63999 < u.toNat
  · rw [if_pos hrange, if_pos hrange]
  · rw [if_neg hrange, if_neg hrange]
    cases g with
    | closed => simp only [h.isClosed.2 rfl, if_true]
    | opened universes =>
      have hopen : ¬ r.isClosed = true := by
        intro hclosed
        cases h.isClosed.1 hclosed
      rw [if_neg hopen]
      simp only [h.isActive u, Register.universes]

/-- A request to activate a universe is answered as by the register, joins the group as often, and
changes as much. -/
theorem Agrees.activate (h : Agrees r g) (u : UniverseId) (now : Nat)
    (join : Except ReceiverError Unit) :
    Reply.activation (r.activation u join).result (if (r.obstacle? u).isNone then 1 else 0) =
        (g.activate u join).1 ∧
      Agrees (r.activate u now join) (g.activate u join).2 := by
  -- Unless the universe is activated, the roster is left as it is.
  have hrefused : ∀ a, r.activation u join = a → a ≠ .activated →
      Agrees (r.activate u now join) g := by
    rintro a rfl ha
    rw [activate_of_not_activated ha]
    exact h
  have hobstacle := h.obstacle?_eq u
  have hact := r.activation_eq u join
  unfold Register.activate
  unfold Register.obstacle? at hobstacle
  split at hobstacle
  · next hrange =>
    rw [hobstacle, Option.getD_some] at hact
    rw [if_pos hrange, hobstacle, hact]
    exact ⟨rfl, hrefused _ hact nofun⟩
  · next hrange =>
    rw [if_neg hrange]
    cases g with
    | closed =>
      rw [hobstacle, Option.getD_some] at hact
      rw [hobstacle, hact]
      exact ⟨rfl, hrefused _ hact nofun⟩
    | opened universes =>
      dsimp only at hobstacle ⊢
      split at hobstacle
      · next hmem =>
        rw [hobstacle, Option.getD_some] at hact
        rw [if_pos hmem, hobstacle, hact]
        exact ⟨rfl, hrefused _ hact nofun⟩
      · next hmem =>
        rw [hobstacle, Option.getD_none] at hact
        rw [if_neg hmem, hobstacle, hact]
        cases join with
        | error e => exact ⟨rfl, hrefused _ hact nofun⟩
        | ok _ => exact ⟨rfl, h.activated hact⟩

/-- Where the worker of a universe is taken out, no other universe notices. -/
theorem Agrees.erase (h : Agrees r g) {u : UniverseId} (hclosed : r'.isClosed = r.isClosed)
    (hworkers : r'.workers = r.workers.erase u) : Agrees r' (g.deactivate u) := by
  have hactive : ∀ k, r'.isActive k = true ↔ k ≠ u ∧ k ∈ g.universes := by
    intro k
    rw [Roster.isActive, Directory.contains, hworkers, Directory.find?_erase, ← h.isActive k]
    by_cases hk : u = k
    · simp [hk]
    · rw [if_neg hk, Roster.isActive, Directory.contains]
      exact (and_iff_right (Ne.symm hk)).symm
  refine ⟨?_, ?_⟩
  · rw [hclosed, h.isClosed]
    cases g <;> simp [Register.deactivate]
  · intro k
    rw [hactive]
    cases g <;> simp [Register.deactivate, Register.universes]

/-- A universe without a worker has none to take out. -/
theorem erase_of_inactive {u : UniverseId} (h : r.workers.find? u = none) :
    r.workers.erase u = r.workers := by
  refine Directory.ext_find? ?_
  intro k
  rw [Directory.find?_erase]
  split
  · next hk => rw [← hk, h]
  · rfl

theorem Agrees.deactivate (h : Agrees r g) (u : UniverseId) :
    Agrees (r.deactivate u) (g.deactivate u) := by
  unfold Roster.deactivate
  split
  · next hnone => exact h.erase rfl (erase_of_inactive hnone).symm
  · exact h.erase rfl rfl

theorem Agrees.detach (h : Agrees r g) (u : UniverseId) :
    Agrees (r.detach u) (g.deactivate u) := by
  unfold Roster.detach
  split
  · next hnone => exact h.erase rfl (erase_of_inactive hnone).symm
  · exact h.erase rfl rfl

theorem Agrees.dispatch (h : Agrees r g) (packet : Option Packet) (now : Nat) :
    Agrees (r.dispatch packet now) g := h.of_same rfl fun _ => isActive_dispatch

theorem Agrees.shutdown (h : Agrees r g) : Agrees r.shutdown .closed := by
  unfold Roster.shutdown
  split
  · next hclosed =>
    obtain rfl := h.isClosed.1 hclosed
    exact h
  · exact ⟨by simp, fun u => by simp [Roster.isActive, Directory.contains, Register.universes]⟩

/-- What a caller does is answered as by the register, and leads to where the register says. -/
theorem Agrees.enter (h : Agrees r g) (s : Section) :
    r.reply? s = g.reply? s ∧ Agrees (r.enter s) (g.enter s) := by
  have hmem : ∀ u, r.isActive u = decide (u ∈ g.universes) := by
    intro u
    rw [Bool.eq_iff_iff, decide_eq_true_eq]
    exact h.isActive u
  cases s with
  | activate u now join =>
    obtain ⟨hreply, hnext⟩ := h.activate u now join
    rw [reply?, run_request_counted]
    exact ⟨congrArg some hreply, hnext⟩
  | deactivate u => exact ⟨by rw [reply?, Register.reply?, hmem], h.deactivate u⟩
  | detach u => exact ⟨by rw [reply?, Register.reply?, hmem], h.detach u⟩
  | dispatch packet now =>
    refine ⟨?_, h.dispatch packet now⟩
    simp only [reply?, Register.reply?, isMatched, hmem]
  | visit u packet now =>
    exact ⟨rfl, h.of_same settings_offerTo.2.2 fun _ => isActive_offerTo⟩
  | shutdown => exact ⟨rfl, h.shutdown⟩

/-- However callers get in between each other, they are answered as by the register. -/
theorem Agrees.course (h : Agrees r g) {sections : List Section} {replies : List Reply}
    (course : registry.Course r sections replies r') :
    replies = g.replies sections ∧ Agrees r' (g.after sections) := by
  induction course generalizing g with
  | nil hg => exact ⟨rfl, h.going hg⟩
  | @cons r m r' s rest replies hg _ ih =>
    obtain ⟨hreply, hnext⟩ := (h.going hg).enter s
    obtain ⟨hreplies, hend⟩ := ih hnext
    refine ⟨?_, hend⟩
    rw [hreplies, Register.replies, ← hreply]
    rfl

/-! ## What is left once it is closed -/

/-- How often the caller of a deactivation has still to do with a worker that was taken out. -/
def ties (w : Worker) : Nat := if w.isHeld then (if w.isActive then 2 else 1) else 0

/-- A bound on what can happen outside of the sections. -/
def unrest (r : Roster) : Nat := r.effort + (r.leaving.map ties).sum

theorem unrest_goes (h : Goes r r') : r'.unrest < r.unrest := by
  rcases h with hs | hp
  · have heffort := effort_stir hs
    -- A worker that acts keeps its ties, and one that is gone takes them with it.
    have hties : (r'.leaving.map ties).sum ≤ (r.leaving.map ties).sum := by
      cases hs with
      | active => exact Nat.le_refl _
      | @leaving front back w a p hl ha h =>
        obtain ⟨hactive, hheld, -⟩ := Delivery.Pipeline.flags_act? ha h
        have hw : ties p.worker = ties w := by rw [ties, ties, hactive, hheld]
        simp [hl, hw]
      | gone hl => simp [hl]
      | packet => exact Nat.le_refl _
      | report => exact Nat.le_refl _
    rw [unrest, unrest]
    omega
  · cases hp with
    | @tells front back w hl hheld hactive =>
      have hw : ties w.deactivate < ties w := by
        simp [ties, Worker.deactivate, hheld, hactive]
      have heffort : w.deactivate.effort = w.effort := rfl
      simp only [unrest, effort, crew, hl, heffort, List.map_append, List.map_cons, List.sum_append,
        List.sum_cons, List.length_append, List.length_cons]
      omega
    | @letsGo front back w hl hheld hactive =>
      have hw : ties w.release < ties w := by
        simp [ties, Worker.release, hheld, hactive]
      have heffort : w.release.effort = w.effort := rfl
      simp only [unrest, effort, crew, hl, heffort, List.map_append, List.map_cons, List.sum_append,
        List.sum_cons, List.length_append, List.length_cons]
      omega

/-- Where nothing happens any more, every worker that was taken out is gone. -/
theorem leaving_of_settled (h : Settled r) : r.leaving = [] := by
  have hrest : r.AtRest := fun r' hs => h r' (.inl hs)
  by_contra hne
  obtain ⟨w, hw⟩ := List.exists_mem_of_ne_nil _ hne
  obtain ⟨⟨hmove, hitem⟩, hfinished⟩ := (atRest_iff.1 hrest).2.2 w hw
  obtain ⟨front, back, hl⟩ := List.append_of_mem hw
  cases hheld : w.isHeld with
  | false =>
    rw [Worker.finished_of_released hheld hmove hitem] at hfinished
    cases hfinished
  | true =>
    cases hactive : w.isActive with
    | true => exact h _ (.inr (.tells hl hheld hactive))
    | false => exact h _ (.inr (.letsGo hl hheld hactive))

theorem Agrees.workers_of_closed (h : Agrees r .closed) : r.workers.entries = [] := by
  rw [entries_eq_nil_iff]
  intro u
  rw [← Option.not_isSome_iff_eq_none]
  intro hactive
  simpa [Register.universes] using (h.isActive u).1 hactive

/-- Where nothing happens any more, the sinks are disconnected exactly if the roster is closed. -/
theorem Agrees.sinks_of_settled (h : Agrees r g) (hs : Settled r) : r.sinksClosed = r.isClosed := by
  cases hc : r.isClosed with
  | false => simp [sinksClosed, hc]
  | true =>
    obtain rfl := h.isClosed.1 hc
    simp [sinksClosed, hc, h.workers_of_closed, leaving_of_settled hs]

/-- However its callers get in between each other, a roster answers them as a register of active
universes does that is open until it is closed for good: a request to activate a universe is refused
for its number, for the roster being closed, or for the universe being active, in this order and
without joining its group, and else joins the group once and fails or not with that. Whatever is
refused or fails changes nothing at all. The active universes are listed in increasing order, a
closed roster has no worker but those on their way out and never has one again, and once nothing
happens any more, which it comes to, both sinks are disconnected exactly if it is closed. -/
theorem behaves_as_register {timeout capacity : Nat} {sections : List Section}
    {replies : List Reply} {r : Roster}
    (course : registry.Course (Roster.start timeout capacity) sections replies r) :
    let g := (Register.opened ∅).after sections
    replies = (Register.opened ∅).replies sections ∧
      (r.isClosed = true ↔ g = .closed) ∧
      r.active.Pairwise (· < ·) ∧
      (∀ u, (u ∈ r.active ↔ u ∈ g.universes) ∧ (r.isActive u = true ↔ u ∈ g.universes)) ∧
      (∀ u now join, (r.activation u join).result ≠ .ok true → r.activate u now join = r) ∧
      (r.isClosed = true → r.workers.entries = [] ∧ r.shutdown = r ∧
        ∀ later answers r', registry.Course r later answers r' →
          r'.isClosed = true ∧ r'.active = []) ∧
      (r.sinksClosed = true → r.isClosed = true) ∧
      (∃ r', ReflTransGen Goes r r' ∧ Settled r') ∧
      ∀ r', ReflTransGen Goes r r' → Settled r' → r'.sinksClosed = r.isClosed := by
  intro g
  obtain ⟨hreplies, hagrees⟩ := (agrees_start timeout capacity).course course
  refine ⟨hreplies, hagrees.isClosed, ?_, ?_, ?_, ?_, ?_, ?_, ?_⟩
  · exact List.pairwise_map.2 r.workers.ordered
  · exact fun u => ⟨mem_active_iff.trans (hagrees.isActive u), hagrees.isActive u⟩
  · intro u now join hresult
    refine activate_of_not_activated fun hact => hresult ?_
    rw [hact]
    rfl
  · intro hclosed
    have hg : Agrees r .closed := hagrees.isClosed.1 hclosed ▸ hagrees
    refine ⟨hg.workers_of_closed, if_pos hclosed, ?_⟩
    intro later answers r' hlater
    have hend := (hg.course hlater).2
    rw [Register.after_closed] at hend
    refine ⟨hend.isClosed.2 rfl, ?_⟩
    rw [active, Directory.keys, hend.workers_of_closed, List.map_nil]
  · intro hsinks
    rw [sinksClosed, Bool.and_eq_true, Bool.and_eq_true] at hsinks
    exact hsinks.1.1
  · exact @exists_end_of_decreasing _ Goes unrest (fun _ _ => unrest_goes) r
  · intro r' hgoes hsettled
    have hend := hagrees.going hgoes
    rw [hend.sinks_of_settled hsettled, Bool.eq_iff_iff, hend.isClosed, hagrees.isClosed]

/-- A group cannot be joined at first and can be joined later, two universes are active for a while,
and after the shutdown nothing can be activated. -/
theorem behaves_as_register_until_shutdown :
    ∃ replies r, registry.Course (Roster.start 10 1)
        [.activate 0 0 (.ok ()), .activate 5 1 (.error (.multicastJoin 5 "no route")),
          .activate 5 2 (.ok ()), .activate 5 3 (.ok ()), .activate 7 4 (.ok ()), .detach 7,
          .visit 7 none 5, .deactivate 7, .shutdown, .activate 5 6 (.ok ()),
          .activate 64000 7 (.ok ())] replies r ∧
      replies = [.activation (.error (.invalidUniverse 0)) 0,
        .activation (.error (.multicastJoin 5 "no route")) 1, .activation (.ok true) 1,
        .activation (.ok false) 0, .activation (.ok true) 1, .deactivation true,
        .deactivation false, .activation (.error .closed) 0,
        .activation (.error (.invalidUniverse 64000)) 0] ∧
      ∃ r', ReflTransGen Goes r r' ∧ Settled r' ∧ r'.sinksClosed = true := by
  obtain ⟨replies, r, course⟩ := registry.exists_course (Roster.start 10 1) _
  obtain ⟨hreplies, hclosed, -, -, -, -, -, ⟨r', hgoes, hsettled⟩, hsinks⟩ :=
    behaves_as_register course
  refine ⟨replies, r, course, hreplies, r', hgoes, hsettled, ?_⟩
  rw [hsinks r' hgoes hsettled, hclosed]
  rfl

end Roster

end StreamingAcn
