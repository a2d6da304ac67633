import UserFederation.Run.Reconcile
import UserFederation.Server.Operation

/-! Whatever a server is used for: it is set up and called, looked at, and runs go against it. Every
use has an answer. Only `rawConfigValue?`, which tells secrets, is not among them. -/

namespace UserFederation

/-- What an operation is answered with. -/
abbrev Operation.Answer : Operation → Type
  | .seed .. => String
  | .call c => Except Failure c.Reply
  | .setDefaults .. | .ignoreKey _ | .failNext _ | .clearJournal => Unit

/-- One use of a server. -/
inductive Use
  | operation (operation : Operation)
  /-- The number of components of a realm. -/
  | size (realm : String)
  | journal
  /-- Finds a federation and its mappers. -/
  | resolve (realm : String) (id name : Option String)
  /-- A whole run. -/
  | reconcile (d : Declaration) (mode : RunMode)

/-- What a use is answered with; a run also gives the calls that it made. -/
abbrev Use.Answer : Use → Type
  | .operation op => op.Answer
  | .size _ => Nat
  | .journal => List Mutation
  | .resolve .. => Except Failure (Option Federation)
  | .reconcile .. => Except Failure Outcome × List Call

namespace Server

/-- The answer to an operation. -/
def answerTo (supply : Supply) (s : Server) : (operation : Operation) → operation.Answer
  | .seed realm c => (s.put supply realm c).1
  | .call call => (answer supply call s).1
  | .setDefaults .. | .ignoreKey _ | .failNext _ | .clearJournal => ()

/-- The answer to a use, and the server after it. -/
def use (supply : Supply) (s : Server) : (u : Use) → u.Answer × Server
  | .operation operation => (s.answerTo supply operation, s.apply supply operation)
  | .size realm => (s.size realm, s)
  | .journal => (s.journal, s)
  | .resolve realm id name => (Federation.resolve realm id name).run (answer supply) s
  | .reconcile d mode =>
    let (result, s, calls) := (reconcile d mode).runLogged (answer supply) s
    ((result, calls), s)

/-- The answers to uses one after another, and the server after them. -/
def useAll (supply : Supply) (s : Server) : List Use → List (Σ u : Use, u.Answer) × Server
  | [] => ([], s)
  | u :: rest =>
    let (a, s) := s.use supply u
    let (answers, s) := s.useAll supply rest
    (⟨u, a⟩ :: answers, s)

end Server

end UserFederation
