/-! Why there are no settings. -/
namespace LookupTap.Settings

inductive Fault where
  /-- There is a file, but its name does not tell its format. -/
  | unknownFormat (path : String)
  /-- There is no file, whatever is added to the name. -/
  | notFound (name : String)
  | notText
  | malformed (file : String)
  /-- A file of several documents, or of none where there has to be one. -/
  | documents (count : Nat) (file : String)
  /-- The document of a file is no table. -/
  | noTable (what file : String)
  /-- A setting is not the text that it has to be. -/
  | noText (what key : String) (origin : Option String)
  | unknownLocator (name : String)
  | locatorForm
  deriving DecidableEq, Repr

namespace Fault

def message : Fault → String
  | unknownFormat path => s!"configuration file \"{path}\" is not of a registered file format"
  | notFound name => s!"configuration file \"{name}\" not found"
  | notText => "stream did not contain valid UTF-8"
  | malformed file => s!"malformed document in {file}"
  | documents count file => s!"Got {count} YAML documents, expected 1 in {file}"
  | noTable what file => s!"invalid type: {what}, expected a map in {file} in {file}"
  | noText what key origin =>
    let place := (origin.map (" in " ++ ·)).getD ""
    s!"invalid type: {what}, expected a string for key `{key}`{place}"
  | unknownLocator name => s!"enum LocatorKind does not have variant constructor {name}"
  | locatorForm =>
    "value of enum LocatorKind should be represented by either string or table with exactly one key"

end Fault

end LookupTap.Settings
