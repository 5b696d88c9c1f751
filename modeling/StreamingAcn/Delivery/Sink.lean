/-
StreamingAcn.Delivery.Sink — bounded outlets with a consumer behind them.

A sink holds up to its capacity of elements between the workers and the consumer, and remembers
what the consumer has received. A sink of capacity 0 holds nothing: an element goes through it
when a worker offers it and the consumer receives it at the same moment.
-/

namespace StreamingAcn.Delivery

structure Sink (α : Type) where
  capacity : Nat
  /-- The elements in the sink, oldest first. -/
  held : List α
  /-- What the consumer has received, oldest first. -/
  received : List α
  deriving DecidableEq

namespace Sink

variable {α : Type}

def empty (capacity : Nat) : Sink α := ⟨capacity, [], []⟩

def put? (s : Sink α) (a : α) : Option (Sink α) :=
  if s.held.length < s.capacity then some { s with held := s.held ++ [a] } else none

/-- Hand an element straight to the consumer, through a sink that can hold none. -/
def handOver? (s : Sink α) (a : α) : Option (Sink α) :=
  if s.capacity = 0 then some { s with received := s.received ++ [a] } else none

def receive? (s : Sink α) : Option (Sink α) :=
  match s.held with
  | [] => none
  | a :: rest => some { s with held := rest, received := s.received ++ [a] }

/-- Everything that went into the sink, oldest first. -/
def flow (s : Sink α) : List α := s.received ++ s.held

/-- The sink with a consumer that has put aside what it received. -/
def cleared (s : Sink α) : Sink α := { s with received := [] }

theorem flow_put? {s t : Sink α} {a : α} (h : s.put? a = some t) : t.flow = s.flow ++ [a] := by
  simp only [put?] at h
  split at h <;> simp_all [flow]
  subst h
  simp

theorem flow_receive? {s t : Sink α} (h : s.receive? = some t) : t.flow = s.flow := by
  simp only [receive?] at h
  split at h <;> simp_all [flow]
  subst h
  simp

end Sink

end StreamingAcn.Delivery
