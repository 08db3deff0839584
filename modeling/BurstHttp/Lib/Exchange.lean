/-
Conversations over a connection: a program that reads from a feed, writes, and may fail.

* `Exchange` — such programs, a monad; `write`, `readFull` — the two operations;
* `Exact` — a conversation depends on the items that it consumes and on nothing else, and
  does not succeed over their end; closed under sequencing (`Exact.bind`);
* `Exact.fails_short` — so a conversation that consumes all of a stream fails on one that is
  cut short.
-/
import BurstHttp.Lib.Feed

/-- A connection: what comes in, and what has been written. -/
structure Wire (α ε : Type) where
  reader : Feed α ε
  sent : List α

/-- A program that reads from the connection and writes to it, and may fail. -/
structure Exchange (α ε E β : Type) where
  run : Wire α ε → Except E β × Wire α ε

namespace Exchange

variable {α ε E β γ : Type}

instance : Monad (Exchange α ε E) where
  pure b := ⟨fun w => (.ok b, w)⟩
  bind x f := ⟨fun w =>
    match x.run w with
    | (.ok b, w') => (f b).run w'
    | (.error e, w') => (.error e, w')⟩

def fail (e : E) : Exchange α ε E β := ⟨fun w => (.error e, w)⟩

def write (items : List α) : Exchange α ε E Unit :=
  ⟨fun w => (.ok (), { w with sent := w.sent ++ items })⟩

/-- What was read, unless there was an error. -/
def readResult (wrap : ε → E) : List α × Option ε → Except E (List α)
  | (items, none) => .ok items
  | (_, some err) => .error (wrap err)

/-- Reading until `n` items have arrived. -/
def readFull (wrap : ε → E) (stall : ε) (n : ℕ) : Exchange α ε E (List α) := ⟨fun w =>
  let x := w.reader.readFull stall n
  (readResult wrap (x.1, x.2.1), { w with reader := x.2.2 })⟩

/-- The rest of a conversation, after a part of it that has ended in some way. -/
def resume (f : β → Exchange α ε E γ) : Except E β → Exchange α ε E γ
  | .ok b => f b
  | .error e => fail e

theorem bind_run (x : Exchange α ε E β) (f : β → Exchange α ε E γ) :
    (x >>= f).run = fun w => (resume f (x.run w).1).run (x.run w).2 := by
  funext w
  show (match x.run w with
    | (.ok b, w') => (f b).run w'
    | (.error e, w') => (.error e, w')) = _
  rcases x.run w with ⟨_ | _, w'⟩ <;> rfl

theorem bind_ok {x : Exchange α ε E β} (f : β → Exchange α ε E γ) {w w' : Wire α ε} {b : β}
    (h : x.run w = (.ok b, w')) : (x >>= f).run w = (f b).run w' := by
  rw [bind_run]
  dsimp only
  rw [h]
  rfl

theorem write_bind (items : List α) (f : Unit → Exchange α ε E γ) (w : Wire α ε) :
    (write items >>= f).run w = (f ()).run { w with sent := w.sent ++ items } := rfl

/-- Reading items that are there. -/
theorem readFull_append (wrap : ε → E) (stall : ε) {n : ℕ} {w : Wire α ε} {items rest : List α}
    (hflat : w.reader.flat = items ++ rest) (hlen : items.length = n) :
    ∃ r : Feed α ε, (readFull wrap stall n).run w = (.ok items, { w with reader := r })
      ∧ r.flat = rest := by
  obtain ⟨r, hr, -, -, hfill⟩ := Feed.fill_eq stall (Nat.succ_pos n) w.reader n
  refine ⟨r, ?_, ?_⟩
  · have hlong : ¬ w.reader.flat.length < n := by
      rw [hflat, List.length_append]
      omega
    rw [if_neg hlong, hflat, List.take_left' hlen] at hfill
    rw [readFull]
    dsimp only
    rw [Feed.readFull, hfill]
    rfl
  · rw [hr, hflat, List.drop_left' hlen]

/-- So what follows goes on with them. -/
theorem readFull_bind (wrap : ε → E) (stall : ε) {n : ℕ} {w : Wire α ε} {items rest : List α}
    (hflat : w.reader.flat = items ++ rest) (hlen : items.length = n) :
    ∃ w' : Wire α ε, (∀ {β : Type} (f : List α → Exchange α ε E β),
        (readFull wrap stall n >>= f).run w = (f items).run w') ∧ w'.reader.flat = rest := by
  obtain ⟨r, hread, hrest⟩ := readFull_append wrap stall hflat hlen
  exact ⟨_, fun f => bind_ok f hread, hrest⟩

/-! ### What is written -/

/-- The conversation writes nothing. -/
def Silent (c : Exchange α ε E β) : Prop := ∀ w, (c.run w).2.sent = w.sent

namespace Silent

theorem pure (b : β) : Silent (Pure.pure b : Exchange α ε E β) := fun _ => rfl

theorem fail (e : E) : Silent (fail e : Exchange α ε E β) := fun _ => rfl

theorem readFull (wrap : ε → E) (stall : ε) (n : ℕ) :
    Silent (readFull wrap stall n : Exchange α ε E (List α)) := fun _ => rfl

theorem bind {x : Exchange α ε E β} {f : β → Exchange α ε E γ} (hx : Silent x)
    (hf : ∀ b, Silent (f b)) : Silent (x >>= f) := by
  intro w
  rw [bind_run]
  dsimp only
  cases (x.run w).1 with
  | ok b => exact (hf b _).trans (hx w)
  | error e => exact hx w

theorem ite {p : Prop} [Decidable p] {x y : Exchange α ε E β} (hx : Silent x) (hy : Silent y) :
    Silent (if p then x else y) := by
  split
  · exact hx
  · exact hy

end Silent

/-! ### Exactness -/

/-- What is still to come in. -/
def cursor : Cursor (Wire α ε) α ε :=
  ⟨fun w => w.reader.flat, fun w => w.reader.tail, fun w => w.reader.ended⟩

/-- The conversation is local, and does not succeed over the end of what comes in. -/
structure Exact (c : Exchange α ε E β) : Prop where
  localAt : ∀ w, cursor.LocalAt c.run w
  honest : ∀ w b, (c.run w).1 = .ok b → (c.run w).2.reader.ended = w.reader.ended

namespace Exact

theorem pure (b : β) : Exact (Pure.pure b : Exchange α ε E β) where
  localAt := Cursor.LocalAt.pure _
  honest := fun _ _ _ => rfl

theorem fail (e : E) : Exact (fail e : Exchange α ε E β) where
  localAt := Cursor.LocalAt.pure _
  honest := fun _ _ _ => rfl

theorem write (items : List α) : Exact (write items : Exchange α ε E Unit) where
  localAt := fun _ => ⟨rfl, id, fun _ _ h _ => ⟨rfl, ⟨h.flat, h.ended⟩, rfl⟩⟩
  honest := fun _ _ _ => rfl

theorem readFull (wrap : ε → E) (stall : ε) (n : ℕ) :
    Exact (readFull wrap stall n : Exchange α ε E (List α)) where
  localAt := by
    intro w
    have htake : cursor.LocalAt (fun w : Wire α ε =>
        (((w.reader.readFull stall n).1, (w.reader.readFull stall n).2.1),
          ({ w with reader := (w.reader.readFull stall n).2.2 } : Wire α ε))) w := by
      refine Cursor.LocalAt.of_take n (fun w => ?_) w
      obtain ⟨r, hflat, htail, hended, hfill⟩ := Feed.fill_eq stall (Nat.succ_pos n) w.reader n
      rw [Feed.readFull, hfill]
      exact ⟨rfl, hflat, htail, hended⟩
    exact htake.map (readResult wrap)
  honest := by
    intro w b h
    obtain ⟨r, -, -, hended, hfill⟩ := Feed.fill_eq stall (Nat.succ_pos n) w.reader n
    rw [Exchange.readFull] at h ⊢
    dsimp only at h ⊢
    rw [Feed.readFull, hfill] at h ⊢
    by_cases hshort : w.reader.flat.length < n
    · rw [if_pos hshort] at h
      cases h
    · rw [hended, decide_eq_false hshort, Bool.or_false]

theorem bind {x : Exchange α ε E β} {f : β → Exchange α ε E γ} (hx : Exact x)
    (hf : ∀ b, Exact (f b)) : Exact (x >>= f) := by
  have hresume : ∀ r, Exact (resume f r) := by
    intro r
    cases r with
    | ok b => exact hf b
    | error e => exact Exact.fail e
  constructor
  · intro w
    rw [bind_run]
    exact Cursor.LocalAt.bind (f := fun r => (resume f r).run) (hx.localAt w) ((hresume _).localAt _)
  · intro w c h
    rw [bind_run] at h ⊢
    refine ((hresume _).honest _ c h).trans ?_
    rcases hr : (x.run w).1 with e | b
    · dsimp only at h
      rw [hr] at h
      cases h
    · exact hx.honest w b hr

theorem ite {p : Prop} [Decidable p] {x y : Exchange α ε E β} (hx : Exact x) (hy : Exact y) :
    Exact (if p then x else y) := by
  split
  · exact hx
  · exact hy

/-- A conversation that consumes all of a stream fails when it is cut short: otherwise it would
leave the missing items on the whole stream. -/
theorem fails_short {c : Exchange α ε E β} (h : Exact c) {w : Wire α ε} {short full : List α}
    {closing : ε} (hw : w.reader.Delivers short closing) (hshort : short <+: full)
    (hne : short ≠ full)
    (hfull : ∀ w' : Wire α ε, w'.reader.Delivers full closing → (c.run w').2.reader.flat = []) :
    ∃ e, (c.run w).1 = .error e := by
  cases hr : (c.run w).1 with
  | error e => exact ⟨e, rfl⟩
  | ok b =>
    exfalso
    obtain ⟨missing, rfl⟩ := hshort
    have hended := (h.honest w b hr).trans hw.fresh
    -- the same, and then the missing items
    have hwhole := Feed.ofSegs_delivers [short ++ missing] closing
    rw [List.flatten_singleton] at hwhole
    have hext : cursor.Extends missing w { w with reader := .ofSegs [short ++ missing] closing } := by
      refine ⟨?_, hwhole.fresh.trans hw.fresh.symm⟩
      exact hwhole.flat.trans (congrArg (· ++ missing) hw.flat.symm)
    have hleft := ((h.localAt w).extend missing _ hext (.inl hended)).2.1.flat
    have hempty := hfull { w with reader := .ofSegs [short ++ missing] closing } hwhole
    have hmissing : missing = [] := (List.append_eq_nil_iff.mp (hleft.symm.trans hempty)).2
    rw [hmissing, List.append_nil] at hne
    exact hne rfl

end Exact

end Exchange
