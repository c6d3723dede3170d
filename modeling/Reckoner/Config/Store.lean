import Reckoner.Config.Document
import Reckoner.Config.Overlay
import Reckoner.Config.Reference

/-!
# The configuration in force

A configuration is computed from a document when it is first asked for, and stays in force until it
is dropped or another one is loaded.

* `Surroundings` — the variables and documents that are there at some moment.
* `Surroundings.withBundled` — surroundings in which the bundled document is there.
* `Surroundings.config` — the configuration that a document gives.
* `Config.Store` — the configuration in force, if any.
* `Config.Store.load`, `Config.Store.get`, `Config.Store.reset` — what can be asked of it.
-/

namespace Reckoner

/-- The variables and documents that are there at some moment. -/
structure Surroundings where
  env : Entries String
  /-- The values of the documents under their paths, or why they cannot be read. -/
  documents : Entries (Except String Json)
  /-- The path of the document that is used where no other one is named. -/
  usualPath : String

namespace Config

/-- Why a configuration cannot be loaded. -/
inductive LoadError where
  /-- The document cannot be read. -/
  | unreadable (reason : String)
  /-- The document at a path is no object. -/
  | notAnObject (path : String)
deriving DecidableEq

/-- The wording of the error. -/
def LoadError.message : LoadError → String
  | .unreadable reason => reason
  | .notAnObject path => "Config root must be a mapping: " ++ path

/-- The name of the variable that names the document to be used. -/
def pathVariable : String := "QUICKCALC_CONFIG"

end Config

namespace Surroundings

open Config

/-- Surroundings in which the bundled document is used where no other one is named. -/
def withBundled (env : Entries String) (documents : Entries (Except String Json)) : Surroundings :=
  ⟨env, documents ++ [(bundledPath, .ok bundled)], bundledPath⟩

/-- The path that is named, or else the one in the variable, unless they are empty.  Else it is the
    usual one. -/
def path (w : Surroundings) (named : Option String) : String :=
  match (named.filter (· ≠ "")).or ((w.env.lookup pathVariable).filter (· ≠ "")) with
  | some path => normalPath path
  | none => w.usualPath

/-- The members that a document lays over the defaults: none if there is no document or its value is
    blank. -/
def overrides (w : Surroundings) (path : String) : Except LoadError Members :=
  match w.documents.lookup path with
  | none => .ok []
  | some (.error reason) => .error (.unreadable reason)
  | some (.ok value) =>
    if value.isBlank then .ok []
    else
      match value with
      | .obj members => .ok members
      | _ => .error (.notAnObject path)

/-- The configuration that a document gives. -/
def config (w : Surroundings) (named : Option String) : Except LoadError Members := do
  let above ← w.overrides (w.path named)
  return Json.expandMembers w.env (Json.overlayMembers defaults above)

end Surroundings

/-- The configuration in force, if any. -/
structure Config.Store where
  current : Option Members

namespace Config.Store

/-- No configuration is in force. -/
def empty : Store := ⟨none⟩

/-- Drops the configuration in force. -/
def reset (_ : Store) : Store := empty

/-- Computes a configuration and puts it in force.  If it cannot be computed, the one in force
    stays. -/
def reload (s : Store) (w : Surroundings) (named : Option String) :
    Store × Except LoadError Members :=
  match w.config named with
  | .ok config => (⟨some config⟩, .ok config)
  | .error e => (s, .error e)

/-- The configuration of the document at a path, which is read anew.  Without a path the
    configuration in force is given if there is one. -/
def load (s : Store) (w : Surroundings) (named : Option String) :
    Store × Except LoadError Members :=
  match s.current, named with
  | some config, none => (s, .ok config)
  | _, named => s.reload w named

/-- The configuration in force, which is computed if there is none. -/
def get (s : Store) (w : Surroundings) : Store × Except LoadError Members := s.load w none

end Config.Store

end Reckoner
