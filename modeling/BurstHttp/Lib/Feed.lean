/-
Feeds: finite sequences of items that arrive in segments.

A `Feed` is what the receiving end of a byte stream looks like to a program
that can only ask for "up to `n` items": the items come in non-empty segments
whose boundaries the program does not control, and after the last one every
further request reports the same error.

* `Feed.read` — one request for at most `n` items;
* `Feed.fill` — requests repeated until `n` items have arrived (`Feed.fill_eq`:
  whatever the segments, the result is `take n` of what was left);
* `Feed.stops` — where a program stands between its requests;
* `Cursor.LocalAt` — a computation is *local* at a state when its outcome
  depends only on the items it consumes: the segment boundaries do not matter,
  and unless it ran into the end, neither do the items that follow.
  Locality is closed under sequencing (`Cursor.LocalAt.bind`).
-/
import Mathlib.Data.List.Basic
import Mathlib.Data.Nat.Init
import Mathlib.Order.Lattice

/-- A finite sequence of items in segments.  `ended` records whether a request
has already been answered by the error `tail`. -/
structure Feed (α ε : Type) where
  segs : List (List α)
  ne_nil : ∀ s ∈ segs, s ≠ []
  tail : ε
  ended : Bool

namespace Feed

variable {α ε : Type}

/-- The items still to come, without the segment boundaries. -/
def flat (r : Feed α ε) : List α := r.segs.flatten

/-- `r` is some segmentation of `items`, closed by `closing`, that nobody has
read from yet. -/
structure Delivers (r : Feed α ε) (items : List α) (closing : ε) : Prop where
  flat : r.flat = items
  tail : r.tail = closing
  fresh : r.ended = false

/-- The feed of the given segments; empty ones are left out. -/
def ofSegs (segs : List (List α)) (closing : ε) : Feed α ε where
  segs := segs.filter fun s => !s.isEmpty
  ne_nil := by
    intro s hs
    have := (List.mem_filter.mp hs).2
    rintro rfl
    exact absurd this (by simp)
  tail := closing
  ended := false

theorem ofSegs_delivers (segs : List (List α)) (closing : ε) :
    (ofSegs segs closing).Delivers segs.flatten closing := by
  refine ⟨?_, rfl, rfl⟩
  show (segs.filter fun s => !s.isEmpty).flatten = segs.flatten
  induction segs with
  | nil => rfl
  | cons s segs ih =>
    rcases s with _ | ⟨a, s⟩
    · simpa using ih
    · simpa using ih

/-- The feed without its first `n` items, all of which lie in the first
segment. -/
def dropHead (n : ℕ) : List (List α) → List (List α)
  | [] => []
  | s :: rest => if n < s.length then s.drop n :: rest else rest

theorem dropHead_ne_nil {n : ℕ} {segs : List (List α)} (h : ∀ s ∈ segs, s ≠ []) :
    ∀ s ∈ dropHead n segs, s ≠ [] := by
  rcases segs with _ | ⟨s, rest⟩
  · simp [dropHead]
  · intro u hu
    by_cases hn : n < s.length
    · rw [dropHead, if_pos hn] at hu
      rcases List.mem_cons.mp hu with rfl | hu
      · exact fun hd => absurd (List.drop_eq_nil_iff.mp hd) (by omega)
      · exact h u (List.mem_cons_of_mem _ hu)
    · rw [dropHead, if_neg hn] at hu
      exact h u (List.mem_cons_of_mem _ hu)

/-- One request for at most `n` items.  A request for nothing is answered at
once; a request at the end reports `tail`; otherwise the answer is what the
current segment still holds, cut to `n` items. -/
def read (r : Feed α ε) (n : ℕ) : Except ε (List α) × Feed α ε :=
  if n = 0 then (.ok [], r)
  else
    match r.segs with
    | [] => (.error r.tail, { r with ended := true })
    | s :: _ =>
      (.ok (s.take n), { r with segs := dropHead n r.segs, ne_nil := dropHead_ne_nil r.ne_nil })

theorem flat_eq_nil {r : Feed α ε} : r.flat = [] ↔ r.segs = [] := by
  constructor
  · intro h
    rcases hs : r.segs with _ | ⟨s, rest⟩
    · rfl
    · rw [flat, hs, List.flatten_cons] at h
      exact absurd (List.append_eq_nil_iff.mp h).1 (r.ne_nil s (by rw [hs]; simp))
  · intro h
    rw [flat, h, List.flatten_nil]

/-- A request that reaches the end reports it. -/
theorem read_nil {r : Feed α ε} {n : ℕ} (hn : 0 < n) (h : r.flat = []) :
    r.read n = (.error r.tail, { r with ended := true }) := by
  rw [read, if_neg (by omega)]
  have hs := flat_eq_nil.mp h
  split
  · rfl
  · rename_i hs'
    rw [hs] at hs'
    exact absurd hs' (by simp)

theorem flatten_dropHead (n : ℕ) (s : List α) (rest : List (List α)) :
    (dropHead n (s :: rest)).flatten = (s ++ rest.flatten).drop (s.take n).length := by
  rw [dropHead, List.length_take]
  by_cases hn : n < s.length
  · rw [if_pos hn, List.flatten_cons, Nat.min_eq_left hn.le, List.drop_append_of_le_length hn.le]
  · rw [if_neg hn, Nat.min_eq_right (not_lt.mp hn), List.drop_left]

/-- A request before the end is answered out of the first segment. -/
theorem read_cons {r : Feed α ε} {n : ℕ} (hn : 0 < n) {s : List α} {rest : List (List α)}
    (hs : r.segs = s :: rest) :
    ∃ r' : Feed α ε, r.read n = (.ok (s.take n), r') ∧ r'.segs = dropHead n (s :: rest)
      ∧ r'.flat = r.flat.drop (s.take n).length := by
  refine ⟨{ r with segs := dropHead n r.segs, ne_nil := dropHead_ne_nil r.ne_nil }, ?_, ?_, ?_⟩
  · rw [read, if_neg (by omega)]
    split
    · rename_i hs'
      rw [hs] at hs'
      exact absurd hs' (by simp)
    · rename_i s' rest' hs'
      rw [hs] at hs'
      rw [(List.cons.inj hs').1]
  · rw [← hs]
  · show (dropHead n r.segs).flatten = r.segs.flatten.drop (s.take n).length
    rw [hs, List.flatten_cons]
    exact flatten_dropHead n s rest

/-- A request before the end is answered by a block of between one and `n` of
the next items. -/
theorem read_block {r : Feed α ε} {n : ℕ} (hn : 0 < n) (h : r.flat ≠ []) :
    ∃ (b : α) (bs : List α) (r' : Feed α ε), r.read n = (.ok (b :: bs), r') ∧
      bs.length + 1 ≤ n ∧ r.flat = b :: bs ++ r'.flat ∧ r'.tail = r.tail ∧
      r'.ended = r.ended := by
  rcases hs : r.segs with _ | ⟨s, rest⟩
  · exact absurd (flat_eq_nil.mpr hs) h
  obtain ⟨b, bs, hbs⟩ : ∃ b bs, s.take n = b :: bs := by
    refine List.exists_cons_of_ne_nil fun ht => ?_
    rcases List.take_eq_nil_iff.mp ht with h0 | h0
    · omega
    · exact r.ne_nil s (by rw [hs]; simp) h0
  refine ⟨b, bs, { r with segs := dropHead n r.segs, ne_nil := dropHead_ne_nil r.ne_nil },
    ?_, ?_, ?_, rfl, rfl⟩
  · rw [read, if_neg (by omega)]
    split
    · rename_i hs'
      rw [hs] at hs'
      exact absurd hs' (by simp)
    · rename_i s' rest' hs'
      rw [hs] at hs'
      obtain ⟨rfl, rfl⟩ := List.cons.inj hs'
      rw [hbs]
  · have := congrArg List.length hbs
    rw [List.length_take, List.length_cons] at this
    omega
  · show r.flat = b :: bs ++ (dropHead n r.segs).flatten
    rw [flat, hs, List.flatten_cons, dropHead, ← hbs]
    by_cases hlt : n < s.length
    · rw [if_pos hlt, List.flatten_cons, ← List.append_assoc, List.take_append_drop]
    · rw [if_neg hlt, List.take_of_length_le (not_lt.mp hlt)]

/-- A non-empty answer makes the feed shorter. -/
theorem read_flat_lt {r r' : Feed α ε} {n : ℕ} {b : α} {bs : List α}
    (h : r.read n = (.ok (b :: bs), r')) : r'.flat.length < r.flat.length := by
  rcases Nat.eq_zero_or_pos n with rfl | hn
  · rw [read, if_pos rfl] at h
    exact absurd (congrArg Prod.fst h) (by simp)
  · by_cases hr : r.flat = []
    · rw [read_nil hn hr] at h
      exact absurd (congrArg Prod.fst h) (by simp)
    · obtain ⟨c, cs, r'', hread, -, hflat, -, -⟩ := read_block hn hr
      rw [hread, Prod.mk.injEq] at h
      rw [← h.2, hflat, List.length_append, List.length_cons]
      omega

/-- A request keeps the closing error. -/
theorem read_length_le {r r' : Feed α ε} {n : ℕ} {bs : List α} (h : r.read n = (.ok bs, r')) :
    bs.length ≤ n := by
  rcases Nat.eq_zero_or_pos n with rfl | hn
  · rw [read, if_pos rfl] at h
    obtain rfl : [] = bs := by simpa using congrArg Prod.fst h
    rfl
  · by_cases hr : r.flat = []
    · rw [read_nil hn hr] at h
      exact absurd (congrArg Prod.fst h) (by simp)
    · obtain ⟨b, cs, r'', hread, hlen, -⟩ := read_block hn hr
      rw [hread] at h
      obtain rfl : b :: cs = bs := by simpa using congrArg Prod.fst h
      exact hlen

/-- One item: a request for at most one. -/
def next (r : Feed α ε) : Except ε α × Feed α ε :=
  match r.read 1 with
  | (.ok (b :: _), r') => (.ok b, r')
  | (.ok [], r') => (.error r'.tail, r')
  | (.error e, r') => (.error e, r')

theorem next_nil {r : Feed α ε} (h : r.flat = []) :
    r.next = (.error r.tail, { r with ended := true }) := by
  rw [next, read_nil Nat.one_pos h]

theorem next_cons {r : Feed α ε} {b : α} {bs : List α} (h : r.flat = b :: bs) :
    ∃ r' : Feed α ε, r.next = (.ok b, r') ∧ r'.flat = bs ∧ r'.tail = r.tail ∧
      r'.ended = r.ended := by
  obtain ⟨c, cs, r', hread, hlen, hflat, htail, hended⟩ :=
    read_block Nat.one_pos (show r.flat ≠ [] by rw [h]; simp)
  obtain rfl : cs = [] := List.eq_nil_of_length_eq_zero (by omega)
  rw [h, List.singleton_append, List.cons.injEq] at hflat
  obtain ⟨rfl, hflat⟩ := hflat
  exact ⟨r', by rw [next, hread], hflat.symm, htail, hended⟩

/-- Requests of at most `cap` items each, repeated until `n` items have
arrived or a request fails.  A request that is answered by nothing ends the
loop with the error `stall`. -/
def fill (stall : ε) (cap : ℕ) (r : Feed α ε) (n : ℕ) : List α × Option ε × Feed α ε :=
  if _hn : n = 0 then ([], none, r)
  else
    match r.read (min n cap) with
    | (.error e, r') => ([], some e, r')
    | (.ok [], r') => ([], some stall, r')
    | (.ok (b :: bs), r') =>
      let rest := fill stall cap r' (n - (bs.length + 1))
      (b :: bs ++ rest.1, rest.2)
termination_by n
decreasing_by omega

/-- What a whole `fill` returns, whatever the segments: the next `n` items if
there are that many, otherwise all of them and the closing error. -/
theorem fill_eq (stall : ε) {cap : ℕ} (hcap : 0 < cap) (r : Feed α ε) (n : ℕ) :
    ∃ r' : Feed α ε, r'.flat = r.flat.drop n ∧ r'.tail = r.tail ∧
      r'.ended = (r.ended || decide (r.flat.length < n)) ∧
      fill stall cap r n
        = (r.flat.take n, (if r.flat.length < n then some r.tail else none), r') := by
  induction n using Nat.strong_induction_on generalizing r with
  | _ n ih =>
    rw [fill]
    by_cases hn : n = 0
    · subst hn
      exact ⟨r, by simp, rfl, by simp, by simp⟩
    · rw [dif_neg hn]
      by_cases hr : r.flat = []
      · rw [read_nil (by omega) hr]
        have hlt : r.flat.length < n := by rw [hr]; simpa using Nat.pos_of_ne_zero hn
        refine ⟨{ r with ended := true }, ?_, rfl, ?_, ?_⟩
        · show r.flat = r.flat.drop n
          rw [hr, List.drop_nil]
        · simp [hlt]
        · rw [if_pos hlt, hr]
          simp
      · obtain ⟨b, bs, r', hread, hlen, hflat, htail, hended⟩ :=
          read_block (show 0 < min n cap by omega) hr
        rw [hread]
        dsimp only
        obtain ⟨r'', hflat'', htail'', hended'', hfill⟩ := ih (n - (bs.length + 1)) (by omega) r'
        have hlen' : r.flat.length = bs.length + 1 + r'.flat.length := by
          rw [hflat, List.length_append, List.length_cons]
        have hiff : r'.flat.length < n - (bs.length + 1) ↔ r.flat.length < n := by omega
        have hlb : (b :: bs).length ≤ n := by
          rw [List.length_cons]
          omega
        refine ⟨r'', ?_, htail''.trans htail, ?_, ?_⟩
        · rw [hflat'', hflat, List.drop_append, List.drop_of_length_le hlb, List.nil_append,
            List.length_cons]
        · rw [hended'', hended]
          simp only [hiff]
        · rw [hfill]
          simp only [hiff, htail]
          rw [hflat, List.take_append, List.take_of_length_le hlb, List.length_cons]

/-- A request for more than there is can be cut down. -/
theorem read_min {r : Feed α ε} {n k : ℕ} (hk : 0 < k) (h : r.flat.length ≤ k) :
    r.read (min n k) = r.read n := by
  rcases Nat.eq_zero_or_pos n with rfl | hn
  · rw [Nat.zero_min]
  · obtain ⟨segs, hne, closing, ended⟩ := r
    rw [read, read, if_neg (by omega), if_neg (by omega)]
    rcases segs with _ | ⟨s, rest⟩
    · rfl
    · have hle : s.length ≤ k := by
        rw [flat, List.flatten_cons, List.length_append] at h
        omega
      have htake : s.take (min n k) = s.take n := by
        rw [List.take_eq_take_iff]
        omega
      have hdrop : dropHead (min n k) (s :: rest) = dropHead n (s :: rest) := by
        rw [dropHead, dropHead]
        by_cases hlt : n < s.length
        · rw [if_pos (by omega), if_pos hlt, show min n k = n by omega]
        · rw [if_neg (by omega), if_neg hlt]
      simp only [htake, hdrop]

/-- Where a program stands between its requests, when it asks for up to `cap t` items
behind `t` items: `total` now, and so on until a request brings nothing. -/
def stops (cap : ℕ → ℕ) (total : ℕ) (r : Feed α ε) : List ℕ :=
  total ::
    match _h : r.read (cap total) with
    | (.ok (_ :: bs), r') => stops cap (total + (bs.length + 1)) r'
    | (.ok [], _) => []
    | (.error _, _) => []
termination_by r.flat.length
decreasing_by exact read_flat_lt _h

theorem stops_nil {cap : ℕ → ℕ} {total : ℕ} {r : Feed α ε} (hcap : 0 < cap total)
    (h : r.flat = []) : stops cap total r = [total] := by
  rw [stops, read_nil hcap h]

theorem stops_block {cap : ℕ → ℕ} {total : ℕ} {r r' : Feed α ε} {b : α} {bs : List α}
    (h : r.read (cap total) = (.ok (b :: bs), r')) :
    stops cap total r = total :: stops cap (total + (bs.length + 1)) r' := by
  rw [stops, h]

theorem le_of_mem_stops {cap : ℕ → ℕ} {total t : ℕ} {r : Feed α ε} (h : t ∈ stops cap total r) :
    total ≤ t := by
  induction hn : r.flat.length using Nat.strong_induction_on generalizing total r with
  | _ n ih =>
    rw [stops] at h
    rcases List.mem_cons.mp h with rfl | h
    · exact le_rfl
    · split at h
      · rename_i hread
        have := ih _ (hn ▸ read_flat_lt hread) h rfl
        omega
      · exact absurd h (by simp)
      · exact absurd h (by simp)

/-- `fill` with requests for everything that is missing. -/
def readFull (stall : ε) (r : Feed α ε) (n : ℕ) : List α × Option ε × Feed α ε :=
  fill stall (n + 1) r n

end Feed

/-! ### Locality -/

/-- How a state exposes the items it has still to deliver. -/
structure Cursor (σ α ε : Type) where
  flat : σ → List α
  tail : σ → ε
  ended : σ → Bool

namespace Cursor

variable {σ α ε β γ : Type} {k : Cursor σ α ε}

/-- `s'` looks like `s`, in other segments and with the items `t` behind. -/
structure Extends (k : Cursor σ α ε) (t : List α) (s s' : σ) : Prop where
  flat : k.flat s' = k.flat s ++ t
  ended : k.ended s' = k.ended s

/-- The computation `c` is local at `s`: on every extension of `s` it gives the
same value and stops at the same place, provided it does not run into the end
of `s` (or the extension adds nothing and closes with the same error). -/
structure LocalAt (k : Cursor σ α ε) (c : σ → β × σ) (s : σ) : Prop where
  tail : k.tail (c s).2 = k.tail s
  sticky : k.ended s = true → k.ended (c s).2 = true
  extend : ∀ (t : List α) (s' : σ), k.Extends t s s' →
    (k.ended (c s).2 = false ∨ (t = [] ∧ k.tail s' = k.tail s)) →
    (c s').1 = (c s).1 ∧ k.Extends t (c s).2 (c s').2 ∧ k.tail (c s').2 = k.tail s'

/-- Returning a value without reading is local. -/
theorem LocalAt.pure (b : β) (s : σ) : k.LocalAt (fun s => (b, s)) s :=
  ⟨rfl, id, fun _ _ h _ => ⟨rfl, h, rfl⟩⟩

/-- Sequencing: `f` needs to be local only where `c` hands over. -/
theorem LocalAt.bind {c : σ → β × σ} {f : β → σ → γ × σ} {s : σ}
    (hc : k.LocalAt c s) (hf : k.LocalAt (f (c s).1) (c s).2) :
    k.LocalAt (fun s => f (c s).1 (c s).2) s := by
  refine ⟨hf.tail.trans hc.tail, fun h => hf.sticky (hc.sticky h), fun t s' hext hend => ?_⟩
  have hend' : k.ended (c s).2 = false ∨ (t = [] ∧ k.tail s' = k.tail s) := by
    rcases hend with h | h
    · left
      by_contra hne
      have := hf.sticky (by simpa using hne)
      rw [this] at h
      exact absurd h (by simp)
    · exact Or.inr h
  obtain ⟨hval, hext', htail⟩ := hc.extend t s' hext hend'
  have hend'' : k.ended (f (c s).1 (c s).2).2 = false ∨
      (t = [] ∧ k.tail (c s').2 = k.tail (c s).2) := by
    rcases hend with h | ⟨ht, h⟩
    · exact Or.inl h
    · exact Or.inr ⟨ht, by rw [htail, hc.tail, h]⟩
  obtain ⟨hval', hext'', htail'⟩ := hf.extend t (c s').2 hext' hend''
  refine ⟨?_, ?_, ?_⟩
  · show (f (c s').1 (c s').2).1 = _
    rw [hval, hval']
  · show k.Extends t _ (f (c s').1 (c s').2).2
    rw [hval]
    exact hext''
  · show k.tail (f (c s').1 (c s').2).2 = _
    rw [hval, htail', htail]

/-- Post-processing the value keeps locality. -/
theorem LocalAt.map {c : σ → β × σ} {s : σ} (g : β → γ) (hc : k.LocalAt c s) :
    k.LocalAt (fun s => (g (c s).1, (c s).2)) s :=
  hc.bind (f := fun b s => (g b, s)) (LocalAt.pure _ _)

/-- Taking one item is local, for every cursor. -/
theorem LocalAt.of_next {c : σ → Except ε α × σ}
    (hnil : ∀ s, k.flat s = [] → (c s).1 = .error (k.tail s) ∧ k.flat (c s).2 = [] ∧
      k.tail (c s).2 = k.tail s ∧ k.ended (c s).2 = true)
    (hcons : ∀ s b bs, k.flat s = b :: bs → (c s).1 = .ok b ∧ k.flat (c s).2 = bs ∧
      k.tail (c s).2 = k.tail s ∧ k.ended (c s).2 = k.ended s) (s : σ) : k.LocalAt c s := by
  rcases hs : k.flat s with _ | ⟨b, bs⟩
  · obtain ⟨hval, hflat, htail, hended⟩ := hnil s hs
    refine ⟨htail, fun _ => hended, fun t s' hext hend => ?_⟩
    rcases hend with h | ⟨rfl, htl⟩
    · exact absurd (hended.symm.trans h) (by simp)
    · have hs' : k.flat s' = [] := by rw [hext.flat, hs, List.append_nil]
      obtain ⟨hval', hflat', htail', hended'⟩ := hnil s' hs'
      exact ⟨by rw [hval, hval', htl], ⟨by rw [hflat, hflat', List.append_nil],
        hended'.trans hended.symm⟩, htail'⟩
  · obtain ⟨hval, hflat, htail, hended⟩ := hcons s b bs hs
    refine ⟨htail, fun h => hended.trans h, fun t s' hext _ => ?_⟩
    have hs' : k.flat s' = b :: (bs ++ t) := by rw [hext.flat, hs, List.cons_append]
    obtain ⟨hval', hflat', htail', hended'⟩ := hcons s' b (bs ++ t) hs'
    exact ⟨by rw [hval, hval'], ⟨by rw [hflat, hflat'],
      (hended'.trans hext.ended).trans hended.symm⟩, htail'⟩

/-- Taking exactly `n` items is local, for every cursor. -/
theorem LocalAt.of_take {c : σ → (List α × Option ε) × σ} (n : ℕ)
    (h : ∀ s, (c s).1 = ((k.flat s).take n, if (k.flat s).length < n then some (k.tail s) else none) ∧
      k.flat (c s).2 = (k.flat s).drop n ∧ k.tail (c s).2 = k.tail s ∧
      k.ended (c s).2 = (k.ended s || decide ((k.flat s).length < n))) (s : σ) :
    k.LocalAt c s := by
  obtain ⟨hval, hflat, htail, hended⟩ := h s
  refine ⟨htail, fun hs => by rw [hended, hs, Bool.true_or], fun t s' hext hend => ?_⟩
  obtain ⟨hval', hflat', htail', hended'⟩ := h s'
  by_cases hn : (k.flat s).length < n
  · -- the end was reached, so nothing may have been added behind it
    rcases hend with he | ⟨rfl, htl⟩
    · rw [hended, decide_eq_true hn, Bool.or_true] at he
      exact absurd he (by simp)
    · have hs' : k.flat s' = k.flat s := by rw [hext.flat, List.append_nil]
      exact ⟨by rw [hval, hval', hs', htl], ⟨by rw [hflat, hflat', hs', List.append_nil],
        by rw [hended, hended', hs', hext.ended]⟩, htail'⟩
  · have hle : n ≤ (k.flat s).length := not_lt.mp hn
    have hn' : ¬ (k.flat s').length < n := by
      rw [hext.flat, List.length_append]
      omega
    refine ⟨?_, ⟨?_, ?_⟩, htail'⟩
    · rw [hval, hval', if_neg hn, if_neg hn', hext.flat, List.take_append_of_le_length hle]
    · rw [hflat, hflat', hext.flat, List.drop_append_of_le_length hle]
    · rw [hended, hended', hext.ended, decide_eq_false hn, decide_eq_false hn']

end Cursor

namespace Feed

variable {α ε : Type}

/-- A feed as a cursor. -/
def cursor : Cursor (Feed α ε) α ε := ⟨Feed.flat, Feed.tail, Feed.ended⟩

theorem next_localAt (r : Feed α ε) : cursor.LocalAt next r := by
  refine Cursor.LocalAt.of_next (fun s hs => ?_) (fun s b bs hs => ?_) r
  · have hs' : s.flat = [] := hs
    rw [next_nil hs']
    exact ⟨rfl, hs', rfl, rfl⟩
  · obtain ⟨s', hnext, hflat, htail, hended⟩ := next_cons (show s.flat = b :: bs from hs)
    rw [hnext]
    exact ⟨rfl, hflat, htail, hended⟩

/-- Filling a buffer is local. -/
theorem fill_localAt (stall : ε) {cap : ℕ} (hcap : 0 < cap) (n : ℕ) (r : Feed α ε) :
    cursor.LocalAt
      (fun r => (((fill stall cap r n).1, (fill stall cap r n).2.1), (fill stall cap r n).2.2))
      r := by
  refine Cursor.LocalAt.of_take n (fun s => ?_) r
  obtain ⟨s', hflat, htail, hended, hfill⟩ := fill_eq stall hcap s n
  simp only [hfill]
  exact ⟨rfl, hflat, htail, hended⟩

end Feed
