import Scriptlet.Host.Plugin
import Scriptlet.Parse.Program

/-! The plugin that comes with the interpreter: script functions from lambda notation, and two
helpers for types. -/

namespace Scriptlet.Lambda

/-- The text before and after the first arrow. -/
def splitArrow? : List Char → Option (List Char × List Char)
  | '=' :: '>' :: cs => some ([], cs)
  | c :: cs => (splitArrow? cs).map fun (before, after) => (c :: before, after)
  | [] => none

def splitCommas : List Char → List (List Char)
  | [] => [[]]
  | c :: cs =>
      if c = ',' then [] :: splitCommas cs
      else
        match splitCommas cs with
        | part :: parts => (c :: part) :: parts
        | [] => [[c]]

/-- A parameter without the type behind its colon. A colon in front belongs to the name. -/
def parameterName (part : List Char) : List Char :=
  match part.takeWhile (· ≠ ':') with
  | [] => part
  | name => if name.length < part.length then Text.trim name else part

def parameterNames (list : List Char) : List (List Char) :=
  (((splitCommas list).map Text.trim).filter (!·.isEmpty)).map parameterName

/-- The parameter names between the first opening and the first closing parenthesis, if they come in
that order. -/
def parameters (lambda : List Char) : List (List Char) :=
  let beforeClose := lambda.takeWhile (· ≠ ')')
  if beforeClose.length < lambda.length ∧ '(' ∈ beforeClose then
    parameterNames ((beforeClose.dropWhile (· ≠ '(')).drop 1)
  else []

/-- A body without the braces around it. -/
def stripBraces (body : List Char) : List Char :=
  match body with
  | '\x7b' :: cs =>
    match cs.reverse with
    | '\x7d' :: inner => Text.trim inner.reverse
    | _ => body
  | _ => body

/-- The only statement of the function that a lambda with this body becomes. -/
def statement (body : List Char) : List Char :=
  let inner := stripBraces (Text.trim body)
  let word := "return".toList
  let isSemicolon (c : Char) : Bool := c = ';'
  if word.isPrefixOf inner then
    "    return ".toList ++ Text.dropEndWhile isSemicolon (Text.trim (inner.drop word.length)) ++
      ";\n".toList
  else "    ".toList ++ Text.dropEndWhile isSemicolon inner ++ ";\n".toList

/-- The source of a function with the parameters and the body of a lambda. -/
def functionSource (name lambda : String) : String :=
  let text := lambda.toList
  let params := ", ".intercalate ((parameters text).map String.ofList)
  let body := match splitArrow? text with
    | some (_, after) => String.ofList (statement after)
    | none => ""
  "function " ++ name ++ "(" ++ params ++ ") \x7b\n" ++ body ++ "\x7d"

/-- Checks that a lambda becomes a function, and shows the function. -/
def createFunction : NativeFunction
  | name :: lambda :: _, console =>
      let source := functionSource name.text lambda.text
      match (Script.ofSource source).diagnostics with
      | d :: _ =>
          (.ok (.bool false),
            console.writeLine ("Error creating function " ++ name.text ++ ": " ++ d.text))
      | [] =>
          (.ok (.bool true),
            (console.writeLine ("Created script function:\n" ++ source)).writeLine
              ("Function " ++ name.text ++ " created successfully"))
  | _, console =>
      (.ok (.bool false), console.writeLine
        "CreateFunction requires 2 arguments: function name and function body")

def typeOf : NativeFunction := .quiet fun
  | arg :: _ => .ok (.string arg.value.typeName)
  | [] => .ok (.string "null")

def toWhole : Value → Value
  | .number x => .number (Number.truncate x)
  | .string s =>
    match Number.ofDecimal? (String.ofList (Text.trim s.toList)) with
    | some x => .number (Number.truncate x)
    | none => .string s
  | .bool b => .number (if b then 1.0 else 0.0)
  | .null => .number 0.0
  | value => value

def toBool : Value → Value
  | .string s => .bool (Text.lowercase s == "true")
  | .number x => .bool (x != 0.0)
  | .null => .bool false
  | value => value

/-- A value converted to the type of the given name; other names leave it as it is. -/
def castTo (arg : Argument) (target : String) : Value :=
  if target = "int" ∨ target = "number" then toWhole arg.value
  else if target = "string" then .string arg.text
  else if target = "bool" ∨ target = "boolean" then toBool arg.value
  else arg.value

/-- A value converted to the type that the second argument names in any case. -/
def cast : NativeFunction := .quiet fun
  | arg :: target :: _ => .ok (castTo arg (Text.lowercase target.text))
  | _ => .ok .null

def plugin : Plugin where
  name := "Lambda Syntax Plugin"
  version := "1.0.0"
  description := "Typed-lambda notation for defining script functions"
  setup := []
  functions :=
    [{ name := "CreateFunction"
       description := "Creates a script function from typed-lambda notation"
       parameters := [⟨"functionName", "string", none⟩, ⟨"functionBody", "string", none⟩]
       returnType := "bool"
       run := fun _ => createFunction },
     { name := "TypeOf"
       description := "Returns the type name of a value"
       parameters := [⟨"value", "any", none⟩]
       returnType := "string"
       run := fun _ => typeOf },
     { name := "Cast"
       description := "Converts a value to the given type"
       parameters := [⟨"value", "any", none⟩, ⟨"targetType", "string", none⟩]
       returnType := "any"
       run := fun _ => cast }]

def aliases : List String := ["csharp", "csharpsyntax", "lambda"]

end Scriptlet.Lambda
