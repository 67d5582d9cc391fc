import ResourceLocator.Proofs.Session

/-!
# What holds of a session because of its parts

A session is *made of* acts of some kind if it does them one after the other, each next one chosen
by the answers so far, and recovers from failures by more of them (`MadeOf`). What such a session
does to its surroundings is read off the acts alone:

* if every act takes a world to one that is `T` to it, and `T` can be chained, then so does the
  session (`MadeOf.leads`);
* if every act answers alike in worlds that are `R` to each other and leaves such worlds behind,
  then so does the session (`MadeOf.alike`).
-/

namespace ResourceLocator.Session

variable {α β : Type} {Act Other : ∀ ⦃α : Type⦄, Session α → Prop}

/-- A session is made of acts of some kind. -/
inductive MadeOf (Act : ∀ ⦃α : Type⦄, Session α → Prop) : ∀ ⦃α : Type⦄, Session α → Prop where
  /-- It is one act. -/
  | act {α : Type} {session : Session α} (h : Act session) : MadeOf Act session
  /-- It goes on after an answer. -/
  | bind {α β : Type} {session : Session α} {next : α → Session β} (h : MadeOf Act session)
      (hnext : ∀ a, MadeOf Act (next a)) : MadeOf Act (session >>= next)
  /-- It recovers from a failure. -/
  | tryCatch {α : Type} {session : Session α} {recover : Failure → Session α}
      (h : MadeOf Act session) (hrecover : ∀ failure, MadeOf Act (recover failure)) :
      MadeOf Act (tryCatch session recover)

namespace MadeOf

variable {session : Session α}

theorem ite {condition : Prop} [Decidable condition] {other : Session α}
    (h : MadeOf Act session) (hother : MadeOf Act other) :
    MadeOf Act (if condition then session else other) := by
  split
  · exact h
  · exact hother

theorem forM {items : List β} {act : β → Session PUnit}
    (hnil : MadeOf Act (pure () : Session PUnit)) (h : ∀ item, MadeOf Act (act item)) :
    MadeOf Act (items.forM act) := by
  induction items with
  | nil => exact hnil
  | cons item items ih => exact .bind (h item) fun _ ↦ ih

/-- Acts of one kind may be made of acts of another. -/
theorem trans (h : MadeOf Act session)
    (hact : ∀ {α} {session : Session α}, Act session → MadeOf Other session) :
    MadeOf Other session := by
  induction h with
  | act h => exact hact h
  | bind _ _ ih ihnext => exact .bind ih ihnext
  | tryCatch _ _ ih ihrecover => exact .tryCatch ih ihrecover

end MadeOf

/-! ### One run -/

section Leads

variable {T : World → World → Prop} {session : Session α}

/-- Every run of a session takes a world to one that is `T` to it. -/
def Leads (T : World → World → Prop) (session : Session α) : Prop :=
  ∀ w, T w (runIn session w).2

theorem Leads.bind {next : α → Session β}
    (htrans : ∀ {w mid after}, T w mid → T mid after → T w after) (h : Leads T session)
    (hnext : ∀ a, Leads T (next a)) : Leads T (session >>= next) := by
  intro w
  have hfirst := h w
  rcases hrun : runIn session w with ⟨outcome, mid⟩
  rw [hrun] at hfirst
  cases outcome with
  | ok a =>
    rw [runIn_bind_of_ok hrun]
    exact htrans hfirst (hnext a mid)
  | error failure =>
    rw [runIn_bind_of_error hrun]
    exact hfirst

theorem Leads.tryCatch {recover : Failure → Session α}
    (htrans : ∀ {w mid after}, T w mid → T mid after → T w after) (h : Leads T session)
    (hrecover : ∀ failure, Leads T (recover failure)) : Leads T (tryCatch session recover) := by
  intro w
  have hfirst := h w
  rcases hrun : runIn session w with ⟨outcome, mid⟩
  rw [hrun] at hfirst
  cases outcome with
  | ok a =>
    rw [runIn_tryCatch_of_ok hrun]
    exact hfirst
  | error failure =>
    rw [runIn_tryCatch_of_error hrun]
    exact htrans hfirst (hrecover failure mid)

/-- **Where every act leads, the session leads.** -/
theorem MadeOf.leads (h : MadeOf Act session)
    (htrans : ∀ {w mid after}, T w mid → T mid after → T w after)
    (hact : ∀ {α} {session : Session α}, Act session → Leads T session) : Leads T session := by
  induction h with
  | act h => exact hact h
  | bind _ _ ih ihnext => exact ih.bind htrans ihnext
  | tryCatch _ _ ih ihrecover => exact ih.tryCatch htrans ihrecover

end Leads

/-! ### Two runs -/

section Alike

variable {R : World → World → Prop} {session other : Session α}

/-- In worlds that are `R` to each other two sessions end in the same way, and leave such worlds
behind. -/
def Alike (R : World → World → Prop) (session other : Session α) : Prop :=
  ∀ w w', R w w' →
    (runIn session w).1 = (runIn other w').1 ∧ R (runIn session w).2 (runIn other w').2

theorem Alike.bind {next next' : α → Session β} (h : Alike R session other)
    (hnext : ∀ a, Alike R (next a) (next' a)) : Alike R (session >>= next) (other >>= next') := by
  intro w w' hworlds
  obtain ⟨houtcome, hafter⟩ := h w w' hworlds
  rcases hrun : runIn session w with ⟨outcome, after⟩
  rcases hrun' : runIn other w' with ⟨outcome', after'⟩
  rw [hrun, hrun'] at houtcome hafter
  obtain rfl : outcome = outcome' := houtcome
  cases outcome with
  | ok a =>
    rw [runIn_bind_of_ok hrun, runIn_bind_of_ok hrun']
    exact hnext a after after' hafter
  | error failure =>
    rw [runIn_bind_of_error hrun, runIn_bind_of_error hrun']
    exact ⟨rfl, hafter⟩

theorem Alike.tryCatch {recover recover' : Failure → Session α} (h : Alike R session other)
    (hrecover : ∀ failure, Alike R (recover failure) (recover' failure)) :
    Alike R (tryCatch session recover) (tryCatch other recover') := by
  intro w w' hworlds
  obtain ⟨houtcome, hafter⟩ := h w w' hworlds
  rcases hrun : runIn session w with ⟨outcome, after⟩
  rcases hrun' : runIn other w' with ⟨outcome', after'⟩
  rw [hrun, hrun'] at houtcome hafter
  obtain rfl : outcome = outcome' := houtcome
  cases outcome with
  | ok a =>
    rw [runIn_tryCatch_of_ok hrun, runIn_tryCatch_of_ok hrun']
    exact ⟨rfl, hafter⟩
  | error failure =>
    rw [runIn_tryCatch_of_error hrun, runIn_tryCatch_of_error hrun']
    exact hrecover failure after after' hafter

theorem Alike.ite {condition : Prop} [Decidable condition] {session' other' : Session α}
    (h : Alike R session session') (hother : Alike R other other') :
    Alike R (if condition then session else other) (if condition then session' else other') := by
  split
  · exact h
  · exact hother

/-- **Where every act is alike, the session is alike.** -/
theorem MadeOf.alike (h : MadeOf Act session)
    (hact : ∀ {α} {session : Session α}, Act session → Alike R session session) :
    Alike R session session := by
  induction h with
  | act h => exact hact h
  | bind _ _ ih ihnext => exact ih.bind ihnext
  | tryCatch _ _ ih ihrecover => exact ih.tryCatch ihrecover

end Alike

end ResourceLocator.Session
