/-!
# Reports of failures

A failure says what was tried, then its causes from the outermost to the innermost.
A report puts the causes below, indented, and numbers them if there are several.
-/

namespace Cosigning

structure Failure where
  /-- What was tried, or what is wrong if there is no cause below it. -/
  message : String
  causes : List String
deriving DecidableEq

namespace Failure

def plain (message : String) : Failure :=
  { message := message, causes := [] }

def ofChain : List String -> Failure
  | [] => plain ""
  | message :: causes => { message := message, causes := causes }

def indented (first later : String) (text : String) : List String :=
  match text.splitOn "\n" with
  | [] => [first]
  | line :: lines => (first ++ line) :: lines.map (fun other => later ++ other)

def padLeft (width : Nat) (text : String) : String :=
  String.ofList (List.replicate (width - text.length) ' ') ++ text

def padRight (width : Nat) (text : String) : String :=
  text ++ String.ofList (List.replicate (width - text.length) ' ')

def causeLines : List String -> List String
  | [cause] => indented "    " "    " cause
  | causes =>
      causes.zipIdx.flatMap (fun entry =>
        indented (padLeft 5 (toString entry.2) ++ ": ") "       " entry.1)

def report (failure : Failure) : List String :=
  indented "Error: " "" failure.message ++
    (if failure.causes.isEmpty then []
    else "" :: "Caused by:" :: causeLines failure.causes)

end Failure

end Cosigning
