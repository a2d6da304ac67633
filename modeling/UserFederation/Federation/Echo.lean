import UserFederation.Federation

/-! A server does not give a federation back exactly as it was sent. `undoEcho` undoes each such
difference in the config of the federation, so that what is stored and what is declared can be
compared. Mappers are echoed exactly. -/

namespace UserFederation

/-- A way in which a server's echo differs from what was sent. -/
inductive EchoRule
  /-- An empty principal attribute is dropped, so a missing one stands for an empty one. -/
  | emptyPrincipal
  /-- The time of the last synchronization is the server's own. -/
  | lastSync
  deriving DecidableEq

namespace EchoRule

/-- All rules, in the order in which they are undone. -/
def all : List EchoRule := [.emptyPrincipal, .lastSync]

/-- The config key that a rule is about. -/
def key : EchoRule → String
  | .emptyPrincipal => principalKey
  | .lastSync => lastSyncKey

/-- Undoes one difference in a config. -/
def undoIn : EchoRule → WireConfig → WireConfig
  | .emptyPrincipal, config =>
    if config.contains principalKey then config else config.insert principalKey [""]
  | .lastSync, config => config.erase lastSyncKey

/-- Undoes one difference in a component; one without config has none. -/
def undo (rule : EchoRule) (c : Component) : Component := c.mapConfig rule.undoIn

end EchoRule

/-- Undoes all differences in a component. -/
def Component.undoEcho (c : Component) : Component :=
  EchoRule.all.foldl (fun c rule => rule.undo c) c

/-- Undoes all differences in a federation. -/
def Federation.undoEcho (f : Federation) : Federation :=
  { f with component := f.component.undoEcho }

end UserFederation
