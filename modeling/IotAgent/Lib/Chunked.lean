import Mathlib.Data.List.Basic

/-!
Machines that are fed in chunks.

A machine is fed a chunk and then works until it waits for more. When work that was done before a
chunk came need not be done again, it does not matter how the input is cut.

* `Chunked.FeedAll`: a machine fed chunk after chunk;
* `Chunked.drives_flatten`: all at once it ends where it ends chunk by chunk.
-/

namespace Chunked

variable {σ α : Type*}

/-- The states from before the first chunk to after the last, each chunk fed to the machine and
worked on until it waits. -/
inductive FeedAll (feed : List α → σ → σ) (drives : σ → σ → Prop) : List (List α) → σ → σ → Prop
  | nil (s : σ) : FeedAll feed drives [] s s
  | cons {chunk : List α} {chunks : List (List α)} {s s' s'' : σ}
      (hdrives : drives (feed chunk s) s') (hrest : FeedAll feed drives chunks s' s'') :
      FeedAll feed drives (chunk :: chunks) s s''

variable {feed : List α → σ → σ} {drives : σ → σ → Prop} {Inv : σ → Prop}

lemma FeedAll.mono {drives' : σ → σ → Prop} (h : ∀ s s', drives s s' → drives' s s')
    {chunks : List (List α)} {s s' : σ} (hfeed : FeedAll feed drives chunks s s') :
    FeedAll feed drives' chunks s s' := by
  induction hfeed with
  | nil s => exact .nil s
  | cons hdrives _ ih => exact .cons (h _ _ hdrives) ih

lemma FeedAll.unique (h : ∀ s s' s'', drives s s' → drives s s'' → s' = s'')
    {chunks : List (List α)} {s s' s'' : σ} (h₁ : FeedAll feed drives chunks s s')
    (h₂ : FeedAll feed drives chunks s s'') : s' = s'' := by
  induction h₁ with
  | nil s => cases h₂; rfl
  | cons hdrives _ ih =>
      cases h₂ with
      | cons hdrives' hrest' =>
          obtain rfl := h _ _ _ hdrives hdrives'
          exact ih hrest'

/-- A machine that goes on after a chunk as if the chunk had been there before ends in the same
state when it is fed all of its chunks at once. -/
theorem drives_flatten (hfeed : ∀ chunk s, Inv s → Inv (feed chunk s))
    (happend : ∀ a b s, feed b (feed a s) = feed (a ++ b) s)
    (hresume : ∀ s s' s'' chunk, Inv s → drives s s' → drives (feed chunk s') s'' →
      drives (feed chunk s) s'')
    {chunk : List α} {chunks : List (List α)} {s s' s'' : σ} (hs : Inv s)
    (hfirst : drives (feed chunk s) s') (hrest : FeedAll feed drives chunks s' s'') :
    drives (feed (chunk :: chunks).flatten s) s'' := by
  induction hrest generalizing chunk with
  | nil s' => rwa [List.flatten_cons, List.flatten_nil, List.append_nil]
  | cons hdrives hrest ih =>
      have hboth := hresume _ _ _ _ (hfeed chunk s hs) hfirst hdrives
      rw [happend] at hboth
      have := ih hboth
      rwa [List.flatten_cons, List.append_assoc, ← List.flatten_cons, ← List.flatten_cons] at this

end Chunked
