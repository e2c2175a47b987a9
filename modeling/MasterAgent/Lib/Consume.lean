/-
  MasterAgent.Lib.Consume

  A consumer beside a producer.  The consumer reacts to every act of the
  producer with acts of its own.  When a reaction raises, the consumer stops
  there and the producer is abandoned: it performs at most `grace` further acts
  before it is cancelled.
-/

import MasterAgent.Lib.Effect

namespace MasterAgent.Effect

variable {σ ε τ α : Type}

/-- The world an abandoned producer leaves: `last` if it came to its end. -/
def worldLeft (w last : σ) (grace : Nat) (rest : List (τ × σ)) : σ :=
  if rest.length ≤ grace then last
  else ((rest.take grace).getLast?.map Prod.snd).getD w

/-- Consume the acts of a producer that ends with `r` in world `last`. -/
def consumeActs (react : τ → Except ε (List τ)) (grace : Nat) (r : Except ε Unit) (last : σ) :
    List (τ × σ) → Run σ ε τ Unit
  | [] => ⟨r, last, []⟩
  | (t, w) :: rest => match react t with
      | .ok ts =>
          (consumeActs react grace r last rest).after ((t, w) :: ts.map fun t => (t, w))
      | .error e => ⟨.error e, worldLeft w last grace rest, (t, w) :: rest.take grace⟩

/-- Run `p` with a consumer beside it. -/
def Eff.consume (react : τ → Except ε (List τ)) (grace : Nat) (p : Eff σ ε τ α) :
    Eff σ ε τ Unit := fun w =>
  consumeActs react grace ((p w).result.map fun _ => ()) (p w).world (p w).acts

/-- An act followed by the reaction to it. -/
def withReaction (react : τ → Except ε (List τ)) (t : τ) : List τ :=
  match react t with
  | .ok ts => t :: ts
  | .error _ => [t]

/-- Every reaction to the acts `ts` succeeds. -/
def Reacts (react : τ → Except ε (List τ)) (ts : List τ) : Prop :=
  ∀ t ∈ ts, ∃ us, react t = .ok us

theorem consumeActs_cases (react : τ → Except ε (List τ)) (grace : Nat) (r : Except ε Unit)
    (last : σ) (acts : List (τ × σ)) :
    (Reacts react (acts.map Prod.fst) ∧
      (consumeActs react grace r last acts).result = r ∧
      (consumeActs react grace r last acts).world = last ∧
      (consumeActs react grace r last acts).trace
        = (acts.map Prod.fst).flatMap (withReaction react)) ∨
    ∃ pre t w post e, acts = pre ++ (t, w) :: post ∧ Reacts react (pre.map Prod.fst) ∧
      react t = .error e ∧
      (consumeActs react grace r last acts).result = .error e ∧
      (consumeActs react grace r last acts).world = worldLeft w last grace post ∧
      (consumeActs react grace r last acts).trace
        = (pre.map Prod.fst).flatMap (withReaction react) ++
            t :: (post.take grace).map Prod.fst := by
  induction acts with
  | nil => exact Or.inl ⟨by simp [Reacts], rfl, rfl, rfl⟩
  | cons act rest ih =>
      obtain ⟨t, w⟩ := act
      cases hreact : react t with
      | error e =>
          refine Or.inr ⟨[], t, w, rest, e, rfl, by simp [Reacts], hreact, ?_, ?_, ?_⟩
          · simp only [consumeActs, hreact]
          · simp only [consumeActs, hreact]
          · simp [consumeActs, hreact, Run.trace]
      | ok ts =>
          have htrace : (consumeActs react grace r last ((t, w) :: rest)).trace
              = withReaction react t ++ (consumeActs react grace r last rest).trace := by
            simp [consumeActs, hreact, withReaction, Run.trace, Run.after, Function.comp_def]
          have hrest : ∀ x, (consumeActs react grace r last rest).result = x →
              (consumeActs react grace r last ((t, w) :: rest)).result = x := by
            rintro x rfl
            simp only [consumeActs, hreact, Run.after]
          have hworld : (consumeActs react grace r last ((t, w) :: rest)).world
              = (consumeActs react grace r last rest).world := by
            simp only [consumeActs, hreact, Run.after]
          rcases ih with ⟨hall, hr, hw, ht⟩ | ⟨pre, t', w', post, e, rfl, hpre, he, hr, hw, ht⟩
          · refine Or.inl ⟨?_, hrest _ hr, hworld.trans hw, ?_⟩
            · intro u hu
              rcases List.mem_cons.mp hu with rfl | hu
              · exact ⟨ts, hreact⟩
              · exact hall u hu
            · rw [htrace, ht]
              rfl
          · refine Or.inr ⟨(t, w) :: pre, t', w', post, e, rfl, ?_, he, hrest _ hr,
              hworld.trans hw, ?_⟩
            · intro u hu
              rcases List.mem_cons.mp hu with rfl | hu
              · exact ⟨ts, hreact⟩
              · exact hpre u hu
            · rw [htrace, ht, List.map_cons, List.flatMap_cons, List.append_assoc]

/-- How long an abandoned producer lives makes no difference where every reaction
    succeeds. -/
theorem consumeActs_grace {react : τ → Except ε (List τ)} {acts : List (τ × σ)}
    (h : Reacts react (acts.map Prod.fst)) (grace grace' : Nat) (r : Except ε Unit) (last : σ) :
    consumeActs react grace r last acts = consumeActs react grace' r last acts := by
  induction acts with
  | nil => rfl
  | cons act rest ih =>
      obtain ⟨t, w⟩ := act
      obtain ⟨us, hus⟩ := h t List.mem_cons_self
      simp only [consumeActs, hus]
      rw [ih fun u hu => h u (List.mem_cons_of_mem _ hu)]

theorem Eff.consume_grace {react : τ → Except ε (List τ)} {p : Eff σ ε τ α} {w : σ}
    (h : Reacts react (p w).trace) (grace grace' : Nat) :
    consume react grace p w = consume react grace' p w :=
  consumeActs_grace h grace grace' _ _

/-- How consuming a run goes: every reaction succeeds and the producer comes to
    its end, or one raises and the producer is cut off some acts later. -/
theorem Eff.consume_cases (react : τ → Except ε (List τ)) (grace : Nat) (p : Eff σ ε τ α)
    (w : σ) :
    (Reacts react (p w).trace ∧
      (consume react grace p w).result = (p w).result.map (fun _ => ()) ∧
      (consume react grace p w).world = (p w).world ∧
      (consume react grace p w).trace = (p w).trace.flatMap (withReaction react)) ∨
    ∃ pre t post e, (p w).trace = pre ++ t :: post ∧ Reacts react pre ∧
      react t = .error e ∧ (consume react grace p w).result = .error e ∧
      (consume react grace p w).trace
        = pre.flatMap (withReaction react) ++ t :: post.take grace := by
  rcases consumeActs_cases react grace ((p w).result.map fun _ => ()) (p w).world (p w).acts with
    h | ⟨pre, t, w', post, e, hacts, hpre, he, hr, -, ht⟩
  · exact Or.inl h
  · refine Or.inr ⟨pre.map Prod.fst, t, post.map Prod.fst, e, ?_, hpre, he, hr, ?_⟩
    · rw [Run.trace, hacts, List.map_append, List.map_cons]
    · rw [← List.map_take]
      exact ht

/-- A consumed run raises what the producer or a reaction raises. -/
theorem Eff.RaisesOnly.consume {P : ε → Prop} {react : τ → Except ε (List τ)}
    {p : Eff σ ε τ α} (hp : RaisesOnly P p) (hreact : ∀ t e, react t = .error e → P e)
    (grace : Nat) : RaisesOnly P (Eff.consume react grace p) := by
  intro w e he
  rcases Eff.consume_cases react grace p w with
    ⟨-, hr, -, -⟩ | ⟨pre, t, post, e', -, -, hraise, hr, -⟩
  · rw [hr] at he
    cases hres : (p w).result with
    | ok a => simp [hres, Except.map] at he
    | error e' =>
        simp only [hres, Except.map, Except.error.injEq] at he
        exact hp w e (he ▸ hres)
  · rw [hr] at he
    cases he
    exact hreact t _ hraise

/-- The acts of a consumed run are the producer's and the reactions. -/
theorem Eff.ActsOnly.consume {P : τ → Prop} {react : τ → Except ε (List τ)} {p : Eff σ ε τ α}
    (hp : ActsOnly P p) (hreact : ∀ t us, P t → react t = .ok us → ∀ u ∈ us, P u) (grace : Nat) :
    ActsOnly P (Eff.consume react grace p) := by
  intro w u hu
  have hreaction : ∀ ts : List τ, (∀ t ∈ ts, P t) → ∀ u ∈ ts.flatMap (withReaction react), P u := by
    intro ts hts u hu
    obtain ⟨t, ht, hu⟩ := List.mem_flatMap.mp hu
    unfold withReaction at hu
    split at hu
    · next us hus =>
      rcases List.mem_cons.mp hu with rfl | hu
      · exact hts _ ht
      · exact hreact t us (hts t ht) hus u hu
    · rw [List.mem_singleton.mp hu]
      exact hts t ht
  rcases Eff.consume_cases react grace p w with
    ⟨-, -, -, htrace⟩ | ⟨pre, t, post, e, hsplit, -, -, -, htrace⟩
  · rw [htrace] at hu
    exact hreaction _ (hp w) u hu
  · have hacts := hp w
    rw [hsplit] at hacts
    rw [htrace] at hu
    rcases List.mem_append.mp hu with hu | hu
    · exact hreaction pre (fun t ht => hacts t (List.mem_append_left _ ht)) u hu
    · refine hacts u (List.mem_append_right _ ?_)
      rcases List.mem_cons.mp hu with rfl | hu
      · exact List.mem_cons_self
      · exact List.mem_cons_of_mem _ (List.mem_of_mem_take hu)

/-- Where every reaction succeeds, the reactions are among the acts. -/
theorem Eff.mem_consume {react : τ → Except ε (List τ)} {grace : Nat} {p : Eff σ ε τ α} {w : σ}
    (h : Reacts react (p w).trace) {t u : τ} {us : List τ} (ht : t ∈ (p w).trace)
    (hreact : react t = .ok us) (hu : u ∈ us) : u ∈ (consume react grace p w).trace := by
  rcases consume_cases react grace p w with ⟨-, -, -, htrace⟩ | ⟨pre, t', post, e, hsplit, -, he, -⟩
  · rw [htrace, List.mem_flatMap]
    refine ⟨t, ht, ?_⟩
    rw [withReaction, hreact]
    exact List.mem_cons_of_mem _ hu
  · obtain ⟨us', hus'⟩ := h t' (by rw [hsplit]; simp)
    rw [he] at hus'
    cases hus'

/-- A producer that is left enough time comes to its end. -/
theorem Eff.mem_consume_of_grace {react : τ → Except ε (List τ)} {grace : Nat}
    {p : Eff σ ε τ α} {w : σ} (hgrace : (p w).trace.length ≤ grace) {t : τ}
    (ht : t ∈ (p w).trace) : t ∈ (consume react grace p w).trace := by
  have hreaction : ∀ ts : List τ, t ∈ ts → t ∈ ts.flatMap (withReaction react) := by
    intro ts hts
    apply List.mem_flatMap.mpr
    refine ⟨t, hts, ?_⟩
    unfold withReaction
    split <;> simp
  rcases consume_cases react grace p w with
    ⟨-, -, -, htrace⟩ | ⟨pre, t', post, e, hsplit, -, -, -, htrace⟩
  · rw [htrace]
    exact hreaction _ ht
  · have hpost : post.length ≤ grace := by
      rw [hsplit, List.length_append, List.length_cons] at hgrace
      omega
    rw [htrace, List.take_of_length_le hpost, List.mem_append]
    rw [hsplit, List.mem_append] at ht
    rcases ht with ht | ht
    · exact Or.inl (hreaction _ ht)
    · exact Or.inr ht

end MasterAgent.Effect
