import ResourceLocator.Proofs.Session

/-!
# Recording questions

What is asked of a capability, how often and in which order, is read off a run in which the
questions are recorded, each with how it was answered. The capability may do to the world what it
likes, answer the same question in different ways and fail with any failure. A record is only ever
added to: what asks a question and goes on leaves the record of the question before that of the rest
(`runIn_ask_bind_of_ok`).
-/

namespace ResourceLocator

/-- A question that has been put to a capability, and how it was answered. -/
structure Exchange where
  /-- The question. -/
  question : String
  /-- The answer, or the failure in its place. -/
  outcome : Except Failure Bool

/-- A session in which the questions to one capability are recorded. -/
abbrev Recorded := ExceptT Failure (StateM (World × List Exchange))

namespace Recorded

variable {α β : Type} {capability : String → Session Bool} {question : String} {answer : Bool}
  {failure : Failure} {w after : World} {record : List Exchange}

/-- Runs a recorded session in a world, after some questions have been recorded. -/
def runIn (session : Recorded α) (w : World) (record : List Exchange) :
    Except Failure α × World × List Exchange :=
  (ExceptT.run session).run (w, record)

/-- Puts a question to a capability, and records it. -/
def ask (capability : String → Session Bool) (question : String) : Recorded Bool :=
  fun (w, record) ↦
    let (outcome, after) := (capability question).runIn w
    (outcome, after, record ++ [⟨question, outcome⟩])

/-- How a recorded session has gone. -/
structure Run (α : Type) where
  /-- What it came to. -/
  outcome : Except Failure α
  /-- The world afterwards. -/
  world : World
  /-- What has been asked. -/
  record : List Exchange

/-- Runs a session in a world, and records from the beginning. -/
def run (session : Recorded α) (w : World) : Run α :=
  let result := session.runIn w []
  ⟨result.1, result.2.1, result.2.2⟩

theorem runIn_ask {outcome : Except Failure Bool}
    (h : (capability question).runIn w = (outcome, after)) (record : List Exchange) :
    runIn (ask capability question) w record =
      (outcome, after, record ++ [⟨question, outcome⟩]) := by
  have hask : ask capability question (w, record) =
      (((capability question).runIn w).1, ((capability question).runIn w).2,
        record ++ [⟨question, ((capability question).runIn w).1⟩]) := rfl
  rw [h] at hask
  exact hask

/-- **A question that is answered** is recorded before what comes next. -/
theorem runIn_ask_bind_of_ok (h : (capability question).runIn w = (.ok answer, after))
    (next : Bool → Recorded β) (record : List Exchange) :
    runIn (ask capability question >>= next) w record =
      runIn (next answer) after (record ++ [⟨question, .ok answer⟩]) :=
  bind_apply_of_ok (runIn_ask h record) next

/-- **A question that fails** is the last one. -/
theorem runIn_ask_bind_of_error (h : (capability question).runIn w = (.error failure, after))
    (next : Bool → Recorded β) (record : List Exchange) :
    runIn (ask capability question >>= next) w record =
      (.error failure, after, record ++ [⟨question, .error failure⟩]) :=
  bind_apply_of_error (runIn_ask h record) next

end Recorded

end ResourceLocator
