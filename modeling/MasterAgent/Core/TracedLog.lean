/-
  MasterAgent.Core.TracedLog

  Where the messages of a thread come from.  In every interleaving of requests, each
  utterance in the log of a thread is the question of a request in that thread, or
  it is an answer: then the client of its request has been promised it under its
  id, and its content is what was dispatched, delta by delta.
-/

import MasterAgent.Core.DialogueRuns

namespace MasterAgent

open Effect

variable {ι : Type} [DecidableEq ι]

/-- Where an utterance of a request comes from. -/
inductive Traced (req : ChatRequest) (phase : Exchange) (u : Utterance) : Prop where
  | question (userId : PyStr) (h : u = (userMessage req userId).utterance)
  | answer {messageId : PyStr} {contents : List Json} {msg : Message}
      (hphase : phase = .answered messageId contents)
      (hreplies : Replies req messageId contents msg) (h : u = msg.utterance)

/-- Every utterance comes from a request in its thread. -/
def Dialogue.Traced (reqs : ι → ChatRequest) (d : Dialogue ι) : Prop :=
  ∀ threadId, ∀ u ∈ d.log threadId, ∃ i, (reqs i).threadId = .str threadId ∧
    MasterAgent.Traced (reqs i) (d.phase i).exchange u

section Step

variable {reqs : ι → ChatRequest} {req : ChatRequest} {d d' : Dialogue ι} {i j : ι}
  {speech : Speech} {phase phase' : Exchange}

/-- An exchange that has been answered stays so. -/
theorem Exchange.step_answered {messageId : PyStr} {contents : List Json}
    (h : Exchange.step req (.answered messageId contents) speech = some phase') :
    phase' = .answered messageId contents := by
  cases speech with
  | tell data =>
      rw [Exchange.step_tell, Option.some.injEq] at h
      exact h.symm
  | close =>
      rw [Exchange.step_close, Option.some.injEq] at h
      exact h.symm
  | _ => simp [Exchange.step] at h

/-- What is on the log stays traced when its request speaks. -/
theorem Traced.later {u : Utterance} (h : Traced req phase u)
    (hphase : Exchange.step req phase speech = some phase') : Traced req phase' u := by
  cases h with
  | question userId hu => exact .question userId hu
  | answer hanswered hreplies hu =>
      subst hanswered
      exact .answer (Exchange.step_answered hphase) hreplies hu

/-- What a request stores is traced. -/
theorem Traced.stored {msg : Message}
    (hphase : Exchange.step req phase (.store msg) = some phase') :
    Traced req phase' msg.utterance := by
  rcases Exchange.step_store hphase with
    ⟨messageId, -, ⟨userId, rfl⟩, -⟩ | ⟨messageId, contents, -, hreplies, rfl⟩
  · exact .question userId rfl
  · exact .answer rfl hreplies rfl

theorem Dialogue.Traced.step (h : d.Traced reqs)
    (hstep : Dialogue.step reqs d (j, speech) = some d') : d'.Traced reqs := by
  obtain ⟨t, ht, hphases, hlog⟩ := Dialogue.step_cases hstep
  have hphase := (Telling.step_eq_some ht).1
  have hold : ∀ threadId, ∀ u ∈ d.log threadId, ∃ i, (reqs i).threadId = .str threadId ∧
      MasterAgent.Traced (reqs i) (d'.phase i).exchange u := by
    intro threadId u hu
    obtain ⟨i, hthread, htraced⟩ := h threadId u hu
    refine ⟨i, hthread, ?_⟩
    rw [hphases]
    by_cases hji : i = j
    · subst hji
      rw [Function.update_self]
      exact htraced.later hphase
    · rw [Function.update_of_ne hji]
      exact htraced
  intro threadId u hu
  rcases hlog with ⟨hsame, -⟩ | ⟨msg, own, rfl, hthread, hlogged⟩
  · rw [hsame] at hu
    exact hold threadId u hu
  · rw [hlogged] at hu
    by_cases hown : threadId = own
    · subst hown
      rw [MasterAgent.logged, Function.update_self, List.mem_append, List.mem_singleton] at hu
      rcases hu with hu | rfl
      · exact hold threadId u hu
      · refine ⟨j, hthread, ?_⟩
        rw [hphases, Function.update_self]
        exact .stored hphase
    · rw [MasterAgent.logged, Function.update_of_ne hown] at hu
      exact hold threadId u hu

end Step

/-- On empty tables, in every interleaving, the transcripts are traced. -/
theorem transcript_traced {topics : TopicRegistry} {reqs : ι → ChatRequest} {s : Store}
    {acts : List ((ι × Act) × Store)}
    (h : Streaming topics reqs (fun s a s' => MessageStep s.messages a s'.messages) .empty
      acts s) :
    ∃ d : Dialogue ι, d.log = s.transcript ∧ d.Traced reqs ∧
      ∀ i, (d.phase i).Of (actsOf i (acts.map Prod.fst)) := by
  obtain ⟨d, hwatch, hlog, hof⟩ := h.dialogue
  have hstart : (Dialogue.start .empty : Dialogue ι).Traced reqs :=
    fun _ u hu => (List.not_mem_nil hu).elim
  refine ⟨d, hlog, watch_invariant (I := fun _ d => d.Traced reqs) hstart ?_ hwatch, hof⟩
  exact fun _ _ _ _ htraced hstep => htraced.step hstep

end MasterAgent
