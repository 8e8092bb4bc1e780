/-
What can go wrong on the way from a file to a diagram, and the words for it.
-/
namespace ClassDiagram

/-- The words that a tree may lack. -/
inductive Lack
  | type
  | identifier
  | variableDeclarator
  deriving DecidableEq, Repr

def Lack.name : Lack → String
  | type => "type"
  | identifier => "identifier"
  | variableDeclarator => "variable_declarator"

/-- Why a text has no declarations. -/
inductive Fault
  /-- The file is not in a language that can be read. -/
  | unsupportedLanguage (language : String)
  | parserSetup (language reason : String)
  | parseFailed (file : String)
  /-- The text is not a source; line and column of the first fault are counted from one. -/
  | malformed (file : String) (line column : Nat)
  /-- The tree lacks a node. -/
  | missingNode (lack : Lack) (line : Nat)
  deriving DecidableEq, Repr

def Fault.message : Fault → String
  | unsupportedLanguage language =>
    s!"Unsupported language: '{language}'. Supported languages: java"
  | parserSetup language reason => s!"Failed to set parser language for {language}: {reason}"
  | parseFailed file => s!"Failed to parse file: {file}"
  | malformed file line column => s!"Syntax error in {file} at line {line}, column {column}"
  | missingNode lack line => "Missing " ++ lack.name ++ s!" node at line {line}"

/-- Why a file cannot be read. -/
inductive ReadError
  | notFound
  | isADirectory
  | notADirectory
  | permissionDenied
  /-- The content is not UTF-8 text. -/
  | invalidData
  /-- Any other refusal, by the number the system gives it. -/
  | other (code : Nat)
  deriving DecidableEq, Repr

/-- Why there is no diagram. -/
inductive Failure
  /-- The file is refused without a look at its text. -/
  | refused (fault : Fault)
  /-- The text of a file has no declarations. -/
  | unreadable (file : String) (fault : Fault)
  /-- The file has no text. -/
  | disk (path : String) (error : ReadError)
  deriving DecidableEq, Repr

/-- The words for a failure: what was tried and, for a fault, why it failed. -/
def Failure.message : Failure → String
  | refused fault => fault.message
  | unreadable file fault => s!"Failed to read Java source: {file}: " ++ fault.message
  | disk path _ => s!"Failed to read file: {path}"

end ClassDiagram
