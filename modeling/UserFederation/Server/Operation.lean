import UserFederation.Server.Mutation

/-! How a server is used: it is set up, and it answers calls. -/

namespace UserFederation

/-- One use of a server. -/
inductive Operation
  /-- Stores a component as it is, without a journal entry and without default mappers. -/
  | seed (realm : String) (component : Component)
  | setDefaults (provider : String) (mappers : List Component)
  | ignoreKey (key : String)
  | failNext (kind : MutationKind)
  | clearJournal
  | call (call : Call)

namespace Server

/-- The server after an operation, whether it succeeds or fails. -/
def apply (supply : Supply) (s : Server) : Operation → Server
  | .seed realm c => (s.put supply realm c).2
  | .setDefaults provider mappers => { s with defaults := s.defaults.insert provider mappers }
  | .ignoreKey key => { s with ignoredKeys := s.ignoredKeys ++ [key] }
  | .failNext kind => { s with failNext := some kind }
  | .clearJournal => { s with journal := [] }
  | .call call => (answer supply call s).2

/-- The servers that operations lead to from a new one. -/
inductive Reachable (supply : Supply) : Server → Prop
  | withDefaults : Reachable supply withLdapDefaults
  | withoutDefaults : Reachable supply withoutDefaults
  | apply {s : Server} (operation : Operation) :
    Reachable supply s → Reachable supply (s.apply supply operation)

end Server

end UserFederation
