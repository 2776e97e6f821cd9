import Mathlib.Data.List.Basic

/-!
Receivers that are handed a stream in pieces.

A receiver is handed pieces of a stream one after the other and answers each of them. It
collects a message when, after any part of it, its state depends on that part alone, not
on the pieces in which the part came.

* `deliver`: the answers to a list of pieces and the state after the last;
* `deliver_append`, `deliver_invariant`: how deliveries compose, and what every piece keeps;
* `Collects`: a message is waited for until it is whole;
* `Collects.deliver_part`, `Collects.deliver_eq`, `Collects.deliver_eq_single`: any pieces of
  the message have the effect of the whole message in one piece;
* `exists_piece_across`: pieces with no cut at the end of a message have a piece that
  reaches across it.
-/

namespace Fragments

variable {σ β ρ : Type*} (receive : σ → List β → ρ × σ)

/-- The answers to a list of pieces, and the state after the last. -/
def deliver : σ → List (List β) → List ρ × σ
  | s, [] => ([], s)
  | s, c :: cs =>
      ((receive s c).1 :: (deliver (receive s c).2 cs).1, (deliver (receive s c).2 cs).2)

@[simp]
lemma deliver_nil (s : σ) : deliver receive s [] = ([], s) := rfl

@[simp]
lemma deliver_singleton (s : σ) (c : List β) :
    deliver receive s [c] = ([(receive s c).1], (receive s c).2) := rfl

/-- Pieces after pieces. -/
lemma deliver_append (s : σ) (cs ds : List (List β)) :
    deliver receive s (cs ++ ds)
      = ((deliver receive s cs).1 ++ (deliver receive (deliver receive s cs).2 ds).1,
          (deliver receive (deliver receive s cs).2 ds).2) := by
  induction cs generalizing s with
  | nil => simp
  | cons c cs ih => simp only [List.cons_append, deliver, ih]

/-- What holds of the state and the stream so far, and is kept by every piece, holds after
any pieces. -/
theorem deliver_invariant {I : σ → List β → Prop}
    (hstep : ∀ s b c, I s b → I (receive s c).2 (b ++ c)) {s : σ} {b : List β}
    (h : I s b) (cs : List (List β)) : I (deliver receive s cs).2 (b ++ cs.flatten) := by
  induction cs generalizing s b with
  | nil => simpa using h
  | cons c cs ih =>
      have := ih (hstep s b c h)
      rwa [List.append_assoc] at this

/-- The receiver waits for `message`: `waiting b` is its state after the part `b`, and
`answer`, `done` are what the last piece gives. -/
structure Collects (waiting : List β → σ) (pending : ρ) (message : List β) (answer : ρ)
    (done : σ) : Prop where
  more : ∀ b c d, c ≠ [] → d ≠ [] → b ++ c ++ d = message →
    receive (waiting b) c = (pending, waiting (b ++ c))
  whole : ∀ b c, c ≠ [] → b ++ c = message → receive (waiting b) c = (answer, done)

variable {receive} {waiting : List β → σ} {pending : ρ} {message : List β} {answer : ρ}
  {done : σ}

/-- As long as something is missing, all answers are `pending`. -/
theorem Collects.deliver_part (h : Collects receive waiting pending message answer done)
    {b d : List β} {cs : List (List β)} (hne : ∀ c ∈ cs, c ≠ []) (hd : d ≠ [])
    (heq : b ++ cs.flatten ++ d = message) :
    deliver receive (waiting b) cs =
      (List.replicate cs.length pending, waiting (b ++ cs.flatten)) := by
  induction cs generalizing b with
  | nil => simp
  | cons c cs ih =>
      have heq' : b ++ c ++ cs.flatten ++ d = message := by simpa using heq
      have hstep := h.more b c (cs.flatten ++ d) (hne c (List.mem_cons_self ..))
        (List.append_ne_nil_of_right_ne_nil _ hd) (by simpa using heq)
      rw [deliver, hstep, ih (fun c' hc' => hne c' (List.mem_cons_of_mem _ hc')) heq']
      simp [List.replicate_succ]

/-- **Any pieces will do**: all answers but the last are `pending`, the last one and the
state do not depend on the pieces. -/
theorem Collects.deliver_eq (h : Collects receive waiting pending message answer done)
    {b : List β} {cs : List (List β)} (hcs : cs ≠ []) (hne : ∀ c ∈ cs, c ≠ [])
    (heq : b ++ cs.flatten = message) :
    deliver receive (waiting b) cs
      = (List.replicate (cs.length - 1) pending ++ [answer], done) := by
  obtain ⟨ds, d, rfl⟩ := List.eq_nil_or_concat cs |>.resolve_left hcs
  have hd : d ≠ [] := hne d (by simp)
  have hds : ∀ c ∈ ds, c ≠ [] := fun c hc => hne c (by simp [hc])
  have hpart := h.deliver_part (b := b) hds hd (by simpa using heq)
  have hwhole := h.whole (b ++ ds.flatten) d hd (by simpa using heq)
  rw [List.concat_eq_append, deliver_append, hpart, deliver_singleton, hwhole]
  simp

/-- Pieces and the whole message end alike. -/
theorem Collects.deliver_eq_single (h : Collects receive waiting pending message answer done)
    {cs : List (List β)} (hcs : cs ≠ []) (hne : ∀ c ∈ cs, c ≠ []) (heq : cs.flatten = message) :
    deliver receive (waiting []) cs
      = (List.replicate (cs.length - 1) pending ++ [(receive (waiting []) message).1],
          (receive (waiting []) message).2) := by
  have hmessage : message ≠ [] := by
    cases cs with
    | nil => exact absurd rfl hcs
    | cons c cs => simp [← heq, hne c (List.mem_cons_self ..)]
  rw [h.whole [] message hmessage rfl, h.deliver_eq hcs hne (by simpa using heq)]

/-- Pieces of `first ++ second` that are not cut at the end of `first`: one of them begins
in `first` and reaches into `second`. -/
theorem exists_piece_across {first second : List β} {cs : List (List β)}
    (hsecond : second ≠ []) (heq : cs.flatten = first ++ second)
    (hcut : ∀ ds es, cs = ds ++ es → ds.flatten ≠ first) :
    ∃ ds c es x y, cs = ds ++ c :: es ∧ first = ds.flatten ++ x ∧ x ≠ [] ∧ c = x ++ y ∧
      y ≠ [] := by
  induction cs generalizing first with
  | nil => simp [hsecond] at heq
  | cons c cs ih =>
      rw [List.flatten_cons] at heq
      rcases List.append_eq_append_iff.mp heq with ⟨x, hfirst, hrest⟩ | ⟨y, hc, hrest⟩
      · -- the piece ends in `first`: go on behind it
        have hcut' : ∀ ds es, cs = ds ++ es → ds.flatten ≠ x := by
          rintro ds es rfl hds
          exact hcut (c :: ds) es rfl (by rw [List.flatten_cons, hds, hfirst])
        obtain ⟨ds, c', es, x', y, rfl, rfl, hx, rfl, hy⟩ := ih hrest hcut'
        exact ⟨c :: ds, x' ++ y, es, x', y, rfl, by simp [hfirst], hx, rfl, hy⟩
      · have hfirst : first ≠ [] := fun hnil => hcut [] (c :: cs) rfl (by simp [hnil])
        have hy : y ≠ [] := by
          rintro rfl
          exact hcut [c] cs rfl (by simpa using hc)
        exact ⟨[], c, cs, first, y, rfl, by simp, hfirst, hc, hy⟩

end Fragments
