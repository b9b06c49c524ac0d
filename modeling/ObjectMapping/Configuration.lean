import ObjectMapping.Config
import ObjectMapping.Session

/-!
# Configurations

A configuration is a session under the settings of a configuration document.  It counts the
documents that had to wait when they were added.
-/

namespace ObjectMapping

/-- The registry options that settings stand for. -/
def Config.options (config : Config) (reflection : Reflection) : RegistryOptions where
  naming := config.naming
  reflection
  rejectConflictingImports := config.rejectConflictingImports

/-- A build in progress. -/
structure Configuration where
  registry : Registry := {}
  /-- The number of documents that had to wait for a superclass when they were added. -/
  deferred : Nat := 0
deriving Inhabited

namespace Configuration

/-- A build under some settings. -/
def start (config : Config) (reflection : Reflection := {}) : Configuration where
  registry := { options := config.options reflection }

/-- Adds a document. -/
def addDocument (c : Configuration) (document : Document) (metas : MetaMap := .empty) :
    Except MappingError BindOutcome × Configuration :=
  match (Session.addDocument document metas).run c.registry with
  | .ok .bound registry => (.ok .bound, { c with registry })
  | .ok (.deferred missing) registry =>
    (.ok (.deferred missing), { registry, deferred := c.deferred + 1 })
  | .error e registry => (.error e, { c with registry })

/-- Ends the build; the finished registry, if there was no error. -/
def finish (c : Configuration) : Except MappingError Registry :=
  match Session.finish.run c.registry with
  | .ok () registry => .ok registry
  | .error e _ => .error e

end Configuration

end ObjectMapping
