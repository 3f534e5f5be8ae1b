/-
Walks over handlers.

Handlers are called in the order of a list until one of them claims what it was offered.  A
handler may do anything to the state, so a walk is told by its calls: who was called, in what
state, what it answered, and what state it left.

* `Linked` — calls made one after the other, each on the state that the one before it left;
* `UpTo` — calls that go through a list from its front, up to and including the first claim;
* `Throughout` — what is true of every entry at the moment when its turn comes;
* `exists_walk` — if every entry returns when its turn comes, then there is a walk;
* `walk_induction` — how to prove what a walk comes to;
* `UpTo.reaches` — whether the calls come to a given entry;
* `Linked.preserves`, `UpTo.preserves` — what every call preserves is preserved by the walk.
-/

namespace Supervisor

/-- A call of an entry: the state it found, what it answered, and the state it left. -/
structure Call (E V S : Type) where
  entry : E
  before : S
  answer : V
  after : S

section Walk

variable {E V S : Type}

/-- Calls made one after the other; `step e s v s'` says that `e`, called in state `s`, answers `v`
and leaves state `s'`. -/
inductive Linked (step : E → S → V → S → Prop) : S → List (Call E V S) → S → Prop
  | nil (s : S) : Linked step s [] s
  | cons {e s v s' calls s''} (head : step e s v s') (tail : Linked step s' calls s'') :
      Linked step s (⟨e, s, v, s'⟩ :: calls) s''

/-- The calls go through `entries` in order, each entry once, up to and including the first whose
answer is a claim. -/
structure UpTo (claims : V → Prop) (entries : List E) (calls : List (Call E V S)) : Prop where
  inOrder : calls.map Call.entry = entries.take calls.length
  unclaimed : ∀ c ∈ calls.dropLast, ¬claims c.answer
  exhausted : (∀ c ∈ calls, ¬claims c.answer) → calls.length = entries.length

/-- Whenever the turn of an entry comes on a walk from `s`, it and the state then satisfy `P`. -/
def Throughout (step : E → S → V → S → Prop) (claims : V → Prop) (P : E → S → Prop)
    (entries : List E) (s : S) : Prop :=
  ∀ calls s' e rest, Linked step s calls s' → (∀ c ∈ calls, ¬claims c.answer) →
    entries = calls.map Call.entry ++ e :: rest → P e s'

variable {step : E → S → V → S → Prop} {claims : V → Prop} {P Q : E → S → Prop}

/-! ### Calls up to a claim -/

theorem UpTo.nil : UpTo (S := S) claims ([] : List E) [] where
  inOrder := rfl
  unclaimed _ h := nomatch h
  exhausted _ := rfl

theorem UpTo.last {e : E} {s s' : S} {v : V} (h : claims v) (entries : List E) :
    UpTo claims (e :: entries) [⟨e, s, v, s'⟩] where
  inOrder := rfl
  unclaimed _ h := nomatch h
  exhausted hno := absurd h (hno _ (List.mem_singleton_self _))

theorem UpTo.cons {e : E} {s s' : S} {v : V} {calls : List (Call E V S)} {entries : List E}
    (h : ¬claims v) (hrest : UpTo claims entries calls) :
    UpTo claims (e :: entries) (⟨e, s, v, s'⟩ :: calls) where
  inOrder := by rw [List.map_cons, hrest.inOrder, List.length_cons, List.take_succ_cons]
  unclaimed := by
    intro d hd
    cases calls with
    | nil => cases hd
    | cons c' calls =>
      rcases List.mem_cons.1 hd with rfl | hd
      · exact h
      · exact hrest.unclaimed d hd
  exhausted hno := by
    rw [List.length_cons, List.length_cons, hrest.exhausted fun d hd => hno d (.tail _ hd)]

theorem UpTo.eq_nil {calls : List (Call E V S)} (h : UpTo claims [] calls) : calls = [] := by
  have := h.inOrder
  rwa [List.take_nil, List.map_eq_nil_iff] at this

/-- Where there are entries, the first one is called, and the walk goes on unless it claims. -/
theorem UpTo.of_cons {e : E} {entries : List E} {calls : List (Call E V S)}
    (h : UpTo claims (e :: entries) calls) :
    ∃ c rest, calls = c :: rest ∧ c.entry = e ∧
      (claims c.answer ∧ rest = [] ∨ ¬claims c.answer ∧ UpTo claims entries rest) := by
  match calls with
  | [] => exact absurd (h.exhausted fun _ hc => nomatch hc) (by simp)
  | [c] =>
    obtain ⟨hc, -⟩ := List.cons.inj h.inOrder
    refine ⟨c, [], rfl, hc, ?_⟩
    by_cases hclaim : claims c.answer
    · exact .inl ⟨hclaim, rfl⟩
    · -- nobody claimed, so this was the only entry
      have hlen := h.exhausted fun d hd => by rwa [List.mem_singleton.1 hd]
      have hnil : entries = [] := List.length_eq_zero_iff.1 (Nat.succ.inj hlen).symm
      rw [hnil]
      exact .inr ⟨hclaim, .nil⟩
  | c :: d :: rest =>
    obtain ⟨hc, hrest⟩ := List.cons.inj h.inOrder
    have hclaim : ¬claims c.answer := h.unclaimed c (.head _)
    refine ⟨c, d :: rest, rfl, hc, .inr ⟨hclaim, hrest, ?_, ?_⟩⟩
    · intro x hx
      exact h.unclaimed x (.tail _ hx)
    · intro hno
      refine Nat.succ.inj (h.exhausted fun x hx => ?_)
      rcases List.mem_cons.1 hx with rfl | hx
      · exact hclaim
      · exact hno x hx

/-! ### Walks -/

theorem Throughout.mono (h : Throughout step claims P entries s) (hPQ : ∀ e s, P e s → Q e s) :
    Throughout step claims Q entries s :=
  fun calls s' e rest hl hno heq => hPQ e s' (h calls s' e rest hl hno heq)

theorem Throughout.head {e : E} {entries : List E} {s : S}
    (h : Throughout step claims P (e :: entries) s) : P e s :=
  h [] s e entries (.nil s) (fun _ hc => nomatch hc) rfl

theorem Throughout.tail {e : E} {entries : List E} {s s' : S} {v : V}
    (h : Throughout step claims P (e :: entries) s) (hstep : step e s v s') (hv : ¬claims v) :
    Throughout step claims P entries s' := by
  intro calls s'' e' rest hl hno heq
  refine h (⟨e, s, v, s'⟩ :: calls) s'' e' rest (.cons hstep hl) ?_ (by rw [heq]; rfl)
  intro c hc
  rcases List.mem_cons.1 hc with rfl | hc
  · exact hv
  · exact hno c hc

/-- If every entry returns when its turn comes, the walk reaches a claim or the end of the list. -/
theorem exists_walk {entries : List E} {s : S}
    (h : Throughout step claims (fun e s => ∃ v s', step e s v s') entries s) :
    ∃ calls s', Linked step s calls s' ∧ UpTo claims entries calls := by
  -- a claim ends the walk; otherwise it goes on from the state that the call left
  induction entries generalizing s with
  | nil => exact ⟨[], s, .nil s, .nil⟩
  | cons e entries ih =>
    obtain ⟨v, s', hstep⟩ := h.head
    by_cases hv : claims v
    · exact ⟨[⟨e, s, v, s'⟩], s', .cons hstep (.nil s'), .last hv entries⟩
    · obtain ⟨calls, s'', hlinked, hupTo⟩ := ih (h.tail hstep hv)
      exact ⟨⟨e, s, v, s'⟩ :: calls, s'', .cons hstep hlinked, .cons hv hupTo⟩

/-- Induction along a walk: from the end of the list, or from the call that claims, back over the
calls that do not. -/
theorem walk_induction {motive : List E → S → List (Call E V S) → S → Prop}
    (nobody : ∀ s, motive [] s [] s)
    (claimed : ∀ {e entries s v s'}, step e s v s' → claims v →
      motive (e :: entries) s [⟨e, s, v, s'⟩] s')
    (passed : ∀ {e entries s v s' calls s''}, step e s v s' → ¬claims v →
      motive entries s' calls s'' → motive (e :: entries) s (⟨e, s, v, s'⟩ :: calls) s'')
    {entries : List E} {s s' : S} {calls : List (Call E V S)} (hlinked : Linked step s calls s')
    (hupTo : UpTo claims entries calls) : motive entries s calls s' := by
  induction hlinked generalizing entries with
  | nil s =>
    -- no call at all means that there was nobody to call
    have hnil : entries = [] :=
      List.length_eq_zero_iff.1 (hupTo.exhausted fun _ hc => nomatch hc).symm
    rw [hnil]
    exact nobody s
  | cons head tail ih =>
    match entries with
    | [] => exact absurd hupTo.eq_nil (List.cons_ne_nil _ _)
    | _ :: entries =>
      obtain ⟨c, rest, heq, rfl, hcase⟩ := hupTo.of_cons
      obtain ⟨rfl, rfl⟩ := List.cons.inj heq
      rcases hcase with ⟨hclaim, rfl⟩ | ⟨hclaim, hrest⟩
      · cases tail
        exact claimed head hclaim
      · exact passed head hclaim (ih hrest)

/-- Calls through a list end before an entry of it, or they come to that entry. -/
theorem UpTo.reaches {xs ys : List E} {e : E} {calls : List (Call E V S)}
    (h : UpTo claims (xs ++ e :: ys) calls) :
    (calls.map Call.entry <+: xs ∧ ∃ c ∈ calls, claims c.answer) ∨
      ∃ before c rest, calls = before ++ c :: rest ∧ before.map Call.entry = xs ∧ c.entry = e ∧
        (∀ d ∈ before, ¬claims d.answer) ∧ (claims c.answer → rest = []) := by
  induction xs generalizing calls with
  | nil =>
    obtain ⟨c, rest, rfl, hc, hcase⟩ := h.of_cons
    refine .inr ⟨[], c, rest, rfl, rfl, hc, nofun, fun hclaim => ?_⟩
    exact hcase.elim And.right fun hno => absurd hclaim hno.1
  | cons x xs ih =>
    obtain ⟨c, rest, rfl, rfl, ⟨hclaim, rfl⟩ | ⟨hclaim, hrest⟩⟩ := h.of_cons
    · exact .inl ⟨⟨xs, rfl⟩, c, List.mem_cons_self, hclaim⟩
    · rcases ih hrest with ⟨hbegin, d, hd, hdclaim⟩ | ⟨before, d, after, rfl, rfl, hd, hno, hlast⟩
      · refine .inl ⟨?_, d, List.mem_cons_of_mem c hd, hdclaim⟩
        exact List.cons_prefix_cons.2 ⟨rfl, hbegin⟩
      · refine .inr ⟨c :: before, d, after, rfl, rfl, hd, ?_, hlast⟩
        intro b hb
        rcases List.mem_cons.1 hb with rfl | hb
        · exact hclaim
        · exact hno b hb

/-- Calls can be cut in two anywhere. -/
theorem Linked.split {xs ys : List (Call E V S)} {s s' : S} (h : Linked step s (xs ++ ys) s') :
    ∃ s₁, Linked step s xs s₁ ∧ Linked step s₁ ys s' := by
  induction xs generalizing s with
  | nil => exact ⟨s, .nil s, h⟩
  | cons x xs ih =>
    cases h with
    | cons head tail =>
      obtain ⟨s₁, hxs, hys⟩ := ih tail
      exact ⟨s₁, .cons head hxs, hys⟩

/-- What each of the calls kept in view is as it was. -/
theorem Linked.keeps {A : Type} (view : S → A) {s s' : S} {calls : List (Call E V S)}
    (h : Linked step s calls s') (hkeeps : ∀ c ∈ calls, view c.after = view c.before) :
    view s' = view s := by
  induction h with
  | nil s => rfl
  | cons _ _ ih =>
    obtain ⟨hfirst, hrest⟩ := List.forall_mem_cons.1 hkeeps
    exact (ih hrest).trans hfirst

/-- What every call preserves is preserved by the whole walk. -/
theorem Linked.preserves {I : S → Prop} {s s' : S} {calls : List (Call E V S)}
    (h : Linked step s calls s') (hstep : ∀ {e s v s'}, step e s v s' → I s → I s') (hs : I s) :
    I s' := by
  induction h with
  | nil s => exact hs
  | cons head _ ih => exact ih (hstep head hs)

/-- What a call preserves if its entry satisfies `P` is preserved as long as the turns come. -/
theorem Linked.preserves_throughout {I : S → Prop} {entries : List E} {s s' : S}
    {calls : List (Call E V S)} (h : Linked step s calls s')
    (horder : calls.map Call.entry <+: entries)
    (hunclaimed : ∀ c ∈ calls.dropLast, ¬claims c.answer)
    (hP : Throughout step claims P entries s)
    (hstep : ∀ {e s v s'}, P e s → step e s v s' → I s → I s') (hs : I s) : I s' := by
  induction h generalizing entries with
  | nil s => exact hs
  | @cons e s v s₁ calls s' head tail ih =>
    obtain ⟨rest, rfl⟩ := horder
    have hs₁ : I s₁ := hstep hP.head head hs
    cases calls with
    | nil =>
      cases tail
      exact hs₁
    | cons c calls =>
      have hv : ¬claims v := hunclaimed ⟨e, s, v, s₁⟩ List.mem_cons_self
      exact ih ⟨rest, rfl⟩ (fun d hd => hunclaimed d (List.mem_cons_of_mem _ hd)) (hP.tail head hv)
        hs₁

/-- What a call preserves if its entry satisfies `P` is preserved by the whole walk. -/
theorem UpTo.preserves {I : S → Prop} {entries : List E} {s s' : S} {calls : List (Call E V S)}
    (hupTo : UpTo claims entries calls) (hlinked : Linked step s calls s')
    (hP : Throughout step claims P entries s)
    (hstep : ∀ {e s v s'}, P e s → step e s v s' → I s → I s') (hs : I s) : I s' := by
  refine hlinked.preserves_throughout ?_ hupTo.unclaimed hP hstep hs
  rw [hupTo.inOrder]
  exact List.take_prefix _ _

/-- What a call preserves if its entry satisfies `P` still holds whenever a turn comes. -/
theorem Throughout.preserves {I : S → Prop} {entries : List E} {s : S}
    (hP : Throughout step claims P entries s)
    (hstep : ∀ {e s v s'}, P e s → step e s v s' → I s → I s') (hs : I s) :
    Throughout step claims (fun _ s => I s) entries s := by
  intro calls s' e rest hlinked hno heq
  refine hlinked.preserves_throughout ⟨e :: rest, heq.symm⟩ ?_ hP hstep hs
  exact fun c hc => hno c (List.dropLast_subset calls hc)

end Walk

end Supervisor
