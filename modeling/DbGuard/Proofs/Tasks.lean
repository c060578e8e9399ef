import DbGuard.Proofs.Operations

/-!
# `DbGuard.Proofs.Tasks`: what each task says

`taskVocabulary` puts the vocabularies of the operations together to one for each job, and
`body_speaks_task` says that the program of a job keeps to it. A property of all tasks is then
a question about vocabularies alone.
-/

set_option autoImplicit false

namespace DbGuard

open Coop (Prog)

/-- What either vocabulary allows. -/
def Vocabulary.or (V V' : Vocabulary) : Vocabulary where
  edits u := V.edits u ∨ V'.edits u
  awaits r := V.awaits r ∨ V'.awaits r
  creates j := V.creates j ∨ V'.creates j
  nodeTasks n j := V.nodeTasks n j ∨ V'.nodeTasks n j
  maints j ns := V.maints j ns ∨ V'.maints j ns
  joins n := V.joins n ∨ V'.joins n

/-- A vocabulary is part of its join with another. -/
theorem Vocabulary.le_or_left (V V' : Vocabulary) : V.Le (V.or V') where
  edits _ := .inl
  awaits _ := .inl
  creates _ := .inl
  nodeTasks _ _ := .inl
  maints _ _ := .inl
  joins _ := .inl

/-- So is the other. -/
theorem Vocabulary.le_or_right (V V' : Vocabulary) : V'.Le (V.or V') where
  edits _ := .inr
  awaits _ := .inr
  creates _ := .inr
  nodeTasks _ _ := .inr
  maints _ _ := .inr
  joins _ := .inr

/-- Taking and giving back the lock as task `t`, and the answer of an API request. -/
def requestFrame (t : Nat) : Vocabulary where
  edits
    | .enqueue t' | .acquire t' => t' = t
    | .release => True
    | _ => False
  awaits
    | .reply _ => True
    | _ => False

/-- What a tick of task `t` does itself: it polls, and takes the lock. -/
def pollVocabulary (t : Nat) : Vocabulary where
  edits
    | .observed _ _ => True
    | .enqueue t' | .acquire t' => t' = t
    | .release => True
    | _ => False
  awaits
    | .observe _ _ => True
    | _ => False

/-- What a replacement does around the rebuild of the spare. -/
def spareVocabulary (spare : Node) : Vocabulary where
  edits
    | .goTo new _ _ _ => new = .rebuilding
    | .event e => e.type = .replace
    | .unhealthySince _ | .clearBusy => True
    | .addMember n => n = spare
    | _ => False
  awaits
    | .provision n => n = spare
    | _ => False

/-- What task `t` does with its job. -/
def taskVocabulary (cfg : Config) (t : Nat) : Job → Vocabulary
  | .tick => (failoverVocabulary.or coldVocabulary).or ((tickVocabulary cfg).or (pollVocabulary t))
  | .switchover _ => switchoverVocabulary.or (requestFrame t)
  | .rejoin n => (requestVocabulary n).or (requestFrame t)
  | .halt _ =>
    { edits
        | .halt _ => True
        | _ => False
      awaits
        | .reply _ => True
        | _ => False }
  | .resume =>
    { edits
        | .resume | .clearHistory | .clearBackoff => True
        | _ => False
      awaits
        | .reply _ => True
        | _ => False }
  | .getPrimary =>
    { edits _ := False
      awaits
        | .reply _ => True
        | _ => False }
  | .fence n =>
    { edits
        | .resolve t' _ => t' = t
        | _ => False
      awaits
        | .fence m => m = n
        | _ => False }
  | .rejoinNode n _ => nodeVocabulary n
  | .fenceSecondWriter n _ => (nodeVocabulary n).noMaint
  | .verifyAfterRepoint n _ => watchVocabulary n
  | .repointAfter old _ =>
    { edits
        | .event e => e.type = .rejoin
        | _ => False
      awaits
        | .repointAll ns _ => ns = [old]
        | _ => False }
  | .rebuildAndJoin args =>
    (rebuildVocabulary args.node args.eventType).or
      { edits
          | .clearBusy => True
          | _ => False
        awaits _ := False }
  | .replace spare _ => (rebuildVocabulary spare .replace).or (spareVocabulary spare)
  | .keepUnstuck _ => keeperVocabulary

section
variable (cfg : Config) (t : Nat)

/-- The program of each job keeps to its vocabulary. -/
theorem body_speaks_task (j : Job) : Speaks (taskVocabulary cfg t j) (body cfg t j) := by
  cases j with
  -- A tick speaks each of the four vocabularies at some place.
  | tick =>
      have hleft := Vocabulary.le_or_left (failoverVocabulary.or coldVocabulary)
        ((tickVocabulary cfg).or (pollVocabulary t))
      have hright := Vocabulary.le_or_right (failoverVocabulary.or coldVocabulary)
        ((tickVocabulary cfg).or (pollVocabulary t))
      refine tick_speaks cfg t ?_ ?_ ?_ ?_ ?_ ?_ ?_ ?_
      · exact (Vocabulary.le_or_left _ _).trans hleft
      · exact (Vocabulary.le_or_right _ _).trans hleft
      · exact (Vocabulary.le_or_left _ _).trans hright
      · exact fun _ _ => .inr (.inr trivial)
      · exact fun _ _ => .inr (.inr trivial)
      · exact .inr (.inr rfl)
      · exact .inr (.inr rfl)
      · exact .inr (.inr trivial)
  -- An operation under the lock speaks its own vocabulary and that of the lock.
  | switchover target =>
      unfold body setFailover switchover
      refine speaks_bind (withLock_speaks t (.inr rfl) (.inr rfl) (.inr trivial)
        ((switchoverLocked_speaks cfg target).mono (Vocabulary.le_or_left _ _))) fun r => ?_
      split <;> exact speaks_await (.inr trivial)
  | rejoin node =>
      unfold body setRejoin
      -- Of a rejoin the two refusals only answer.
      refine speaks_look fun s => ?_
      split
      · exact speaks_await (.inr trivial)
      · split
        · exact speaks_await (.inr trivial)
        · refine speaks_bind (withLock_speaks t (.inr rfl) (.inr rfl) (.inr trivial)
            ((rejoinLocked_speaks cfg node).mono (Vocabulary.le_or_left _ _))) fun _ => ?_
          exact speaks_await (.inr trivial)
  -- The requests of the API that only edit and answer.
  | halt reason =>
      unfold body setHalt
      exact speaks_bind (speaks_edit trivial) fun _ => speaks_look fun s => speaks_await trivial
  | resume =>
      unfold body setResume
      refine speaks_bind (speaks_edit trivial) fun _ => speaks_bind (speaks_edit trivial) fun _ => ?_
      exact speaks_bind (speaks_edit trivial) fun _ => speaks_look fun s => speaks_await trivial
  | getPrimary => exact speaks_look fun s => speaks_await trivial
  -- The tasks that a program spawns, each by its own lemma.
  | fence node => exact speaks_bind (speaks_fence rfl) fun r => speaks_edit rfl
  | rejoinNode n why =>
      exact speaks_bind (rejoinNode_speaks cfg n why true) fun _ => speaks_pure _
  | fenceSecondWriter n primary => exact fenceSecondWriter_speaks n primary
  | verifyAfterRepoint n primary => exact verifyAfterRepoint_speaks cfg n primary
  | repointAfter old target => exact repointAfter_speaks old target rfl fun _ he => he
  -- Replacement and rebuild run inside a maintenance window.
  | rebuildAndJoin args =>
      refine maintenance_speaks (.inr trivial) ?_
      exact (rebuildAndJoin_speaks cfg args).mono (Vocabulary.le_or_left _ _)
  | replace spare donor =>
      refine maintenance_speaks (.inr trivial) ?_
      exact replace_speaks cfg spare donor (Vocabulary.le_or_left _ _) (fun _ => .inr rfl)
        (fun _ he => .inr he) (fun _ => .inr trivial) (.inr rfl) (.inr rfl)
  | keepUnstuck donor => exact keepUnstuck_speaks t donor _

end

end DbGuard
