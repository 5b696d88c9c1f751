/-
StreamingAcn.Proofs.Receiver.Course — systems that serve requests and go on by themselves.

A system serves requests one by one, and before each of them any number of things can happen in it
by themselves. One system tracks another when the two can be kept in step: what happens in the one
can happen in the other, and every request of the one is a request of the other or means nothing to
it. Then the courses of the two are the same, apart from the requests that mean nothing.

Definitions:

* `System`, `Course`: a system, and where requests can take it with which answers;
* `Tracks`: what keeps two systems in step.

Main statements: `Tracks.forward`, `Tracks.backward`, each course of the one is one of the other.
-/
import Mathlib.Logic.Relation

namespace StreamingAcn

open Relation (ReflTransGen)

/-- Where everything that happens takes some of a measure away, it comes to an end. -/
theorem exists_end_of_decreasing {σ : Type} {go : σ → σ → Prop} {size : σ → Nat}
    (h : ∀ s t, go s t → size t < size s) (s : σ) :
    ∃ t, ReflTransGen go s t ∧ ∀ t', ¬ go t t' := by
  induction hn : size s using Nat.strongRecOn generalizing s with
  | ind n ih =>
    by_cases hgo : ∃ t, go s t
    · obtain ⟨t, ht⟩ := hgo
      obtain ⟨last, hlast, hend⟩ := ih (size t) (hn ▸ h s t ht) t rfl
      exact ⟨last, .head ht hlast, hend⟩
    · exact ⟨s, .refl, fun t ht => hgo ⟨t, ht⟩⟩

/-- States between which things happen, and requests that change a state at once. -/
structure System (σ α β : Type) where
  stir : σ → σ → Prop
  serve : σ → α → σ
  /-- What the system answers to a request, if anything. -/
  answer? : σ → α → Option β

namespace System

variable {σ τ α γ β δ : Type}

/-- Where requests take a system, and what it answers to them. -/
inductive Course (S : System σ α β) : σ → List α → List β → σ → Prop
  | nil {s t : σ} (h : ReflTransGen S.stir s t) : Course S s [] [] t
  | cons {s m t : σ} {a : α} {as : List α} {bs : List β} (h : ReflTransGen S.stir s m)
      (hc : Course S (S.serve m a) as bs t) :
      Course S s (a :: as) ((S.answer? m a).toList ++ bs) t

/-- What happens before a course is part of it. -/
theorem Course.after {S : System σ α β} {s m t : σ} {as : List α} {bs : List β}
    (h : ReflTransGen S.stir s m) (hc : S.Course m as bs t) : S.Course s as bs t := by
  cases hc with
  | nil h' => exact .nil (h.trans h')
  | cons h' hc => exact .cons (h.trans h') hc

/-- Every row of requests has a course, one in which nothing happens by itself. -/
theorem exists_course (S : System σ α β) (s : σ) (as : List α) : ∃ bs t, S.Course s as bs t := by
  induction as generalizing s with
  | nil => exact ⟨[], s, .nil .refl⟩
  | cons a as ih =>
    obtain ⟨bs, t, hc⟩ := ih (S.serve s a)
    exact ⟨_, t, .cons .refl hc⟩

/-- What every stir keeps, and every request of a course, holds at the end of it. -/
theorem Course.keeps {S : System σ α β} {P : σ → Prop} {s t : σ} {as : List α} {bs : List β}
    (hstir : ∀ s t, P s → S.stir s t → P t) (hserve : ∀ a ∈ as, ∀ s, P s → P (S.serve s a))
    (hc : S.Course s as bs t) (h : P s) : P t := by
  have hstirs : ∀ {s t}, ReflTransGen S.stir s t → P s → P t := by
    intro s t hs h
    induction hs with
    | refl => exact h
    | tail _ hs ih => exact hstir _ _ ih hs
  induction hc with
  | nil hs => exact hstirs hs h
  | @cons s m t a as bs hs _ ih =>
    obtain ⟨ha, hrest⟩ := List.forall_mem_cons.1 hserve
    exact ih hrest (ha m (hstirs hs h))

/-- Two systems that stay in step on some requests, one of which may know fewer of them. -/
structure Tracks (S : System σ α β) (T : System τ γ δ) (InStep : σ → τ → Prop) (May : α → Prop)
    (call? : α → Option γ) (forget : δ → β) : Prop where
  forth {s s' : σ} {t : τ} (h : InStep s t) (hs : S.stir s s') : ∃ t', T.stir t t' ∧ InStep s' t'
  back {s : σ} {t t' : τ} (h : InStep s t) (ht : T.stir t t') : ∃ s', S.stir s s' ∧ InStep s' t'
  serves {s : σ} {t : τ} {a : α} {c : γ} (h : InStep s t) (ha : May a) (hc : call? a = some c) :
    InStep (S.serve s a) (T.serve t c) ∧ S.answer? s a = (T.answer? t c).map forget
  skips {s : σ} {t : τ} {a : α} (h : InStep s t) (ha : May a) (hc : call? a = none) :
    InStep (S.serve s a) t ∧ S.answer? s a = none

namespace Tracks

variable {S : System σ α β} {T : System τ γ δ} {InStep : σ → τ → Prop} {May : α → Prop}
  {call? : α → Option γ} {forget : δ → β} {s s' : σ} {t t' : τ} {as : List α}

theorem forth_stirs (hT : Tracks S T InStep May call? forget) (h : InStep s t)
    (hs : ReflTransGen S.stir s s') : ∃ t', ReflTransGen T.stir t t' ∧ InStep s' t' := by
  induction hs with
  | refl => exact ⟨t, .refl, h⟩
  | tail _ hs ih =>
    obtain ⟨m, hm, hstep⟩ := ih
    obtain ⟨t', ht', hstep'⟩ := hT.forth hstep hs
    exact ⟨t', hm.tail ht', hstep'⟩

theorem back_stirs (hT : Tracks S T InStep May call? forget) (h : InStep s t)
    (ht : ReflTransGen T.stir t t') : ∃ s', ReflTransGen S.stir s s' ∧ InStep s' t' := by
  induction ht with
  | refl => exact ⟨s, .refl, h⟩
  | tail _ ht ih =>
    obtain ⟨m, hm, hstep⟩ := ih
    obtain ⟨s', hs', hstep'⟩ := hT.back hstep ht
    exact ⟨s', hm.tail hs', hstep'⟩

/-- A course of the one system is a course of the other on the requests that it knows. -/
theorem forward (hT : Tracks S T InStep May call? forget) {bs : List β} (hmay : ∀ a ∈ as, May a)
    (h : InStep s t) (hc : S.Course s as bs s') :
    ∃ ds t', T.Course t (as.filterMap call?) ds t' ∧ bs = ds.map forget ∧ InStep s' t' := by
  induction hc generalizing t with
  | nil hs =>
    obtain ⟨t', ht, hstep⟩ := hT.forth_stirs h hs
    exact ⟨[], t', .nil ht, rfl, hstep⟩
  | @cons s m _ a as bs hs _ ih =>
    obtain ⟨n, hn, hstep⟩ := hT.forth_stirs h hs
    obtain ⟨ha, hrest⟩ := List.forall_mem_cons.1 hmay
    cases hcall : call? a with
    | none =>
      obtain ⟨hstep', hanswer⟩ := hT.skips hstep ha hcall
      obtain ⟨ds, t', hc, rfl, hend⟩ := ih hrest hstep'
      refine ⟨ds, t', ?_, ?_, hend⟩
      · rw [List.filterMap_cons_none hcall]
        exact hc.after hn
      · rw [hanswer]
        rfl
    | some c =>
      obtain ⟨hstep', hanswer⟩ := hT.serves hstep ha hcall
      obtain ⟨ds, t', hc, rfl, hend⟩ := ih hrest hstep'
      refine ⟨(T.answer? n c).toList ++ ds, t', ?_, ?_, hend⟩
      · rw [List.filterMap_cons_some hcall]
        exact .cons hn hc
      · rw [hanswer, List.map_append, Option.toList_map]

/-- A course of the other system is a course of the one, whatever requests it does not know. -/
theorem backward (hT : Tracks S T InStep May call? forget) {ds : List δ} (hmay : ∀ a ∈ as, May a)
    (h : InStep s t) (hc : T.Course t (as.filterMap call?) ds t') :
    ∃ s', S.Course s as (ds.map forget) s' ∧ InStep s' t' := by
  induction as generalizing s t ds with
  | nil =>
    cases hc with
    | nil ht =>
      obtain ⟨s', hs, hstep⟩ := hT.back_stirs h ht
      exact ⟨s', .nil hs, hstep⟩
  | cons a as ih =>
    obtain ⟨ha, hrest⟩ := List.forall_mem_cons.1 hmay
    cases hcall : call? a with
    | none =>
      rw [List.filterMap_cons_none hcall] at hc
      obtain ⟨hstep, hanswer⟩ := hT.skips h ha hcall
      obtain ⟨s', hs, hend⟩ := ih hrest hstep hc
      have hcourse := Course.cons (a := a) .refl hs
      rw [hanswer] at hcourse
      exact ⟨s', hcourse, hend⟩
    | some c =>
      rw [List.filterMap_cons_some hcall] at hc
      cases hc with
      | @cons _ n _ _ _ ds hn hc =>
        obtain ⟨m, hm, hstep⟩ := hT.back_stirs h hn
        obtain ⟨hstep', hanswer⟩ := hT.serves hstep ha hcall
        obtain ⟨s', hs, hend⟩ := ih hrest hstep' hc
        have hcourse := Course.cons (a := a) hm hs
        rw [hanswer, Option.toList_map, ← List.map_append] at hcourse
        exact ⟨s', hcourse, hend⟩

end Tracks

end System

end StreamingAcn
