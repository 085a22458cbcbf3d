/-!
Environment variables.

A program reads its environment through a function from names to values, so that a fixed list
of variables can stand in for the one it runs in.
-/

namespace SigV4

/-- What is known of an environment: the value of each variable that has one. -/
structure Environment where
  var? : String → Option String

namespace Environment

/-- The environment with these variables; of two with one name the later one counts. -/
def ofList (vars : List (String × String)) : Environment :=
  ⟨fun name => (vars.reverse.find? fun v => v.1 = name).map Prod.snd⟩

/-! The names of the variables that are read. -/

def accessKeyId : String := "AWS_ACCESS_KEY_ID"
def secretAccessKey : String := "AWS_SECRET_ACCESS_KEY"
def sessionToken : String := "AWS_SESSION_TOKEN"
def region : String := "AWS_REGION"
def defaultRegion : String := "AWS_DEFAULT_REGION"

end Environment

end SigV4
