import GraphLoom.Prompts.Prompt

/-!
# Loading prompts

A prompt in Python's format syntax, which is told by a field that its kind knows, is turned into a
template of the engine: the fields become tags, the doubled braces single ones, and what looks like
a tag in the rest is put into a string.
-/

namespace GraphLoom.Prompts

open GraphLoom.Foundation

/-! ### The scanner -/

inductive GraphRagFormatPart where
  | literal (text : List Char)
  | field (name : List Char)
deriving DecidableEq, Repr

def pushLiteralPart (parts : List GraphRagFormatPart) (literal : List Char) :
    List GraphRagFormatPart :=
  if literal = [] then parts else parts ++ [.literal literal]

mutual

/-- The loop over the bytes of `scan_graphrag_format`. -/
def scanLoop (parts : List GraphRagFormatPart) (literal : List Char) :
    List Char → Except String (List GraphRagFormatPart)
  | [] => .ok (pushLiteralPart parts literal)
  | '{' :: '{' :: rest => scanLoop parts (literal ++ ['{']) rest
  | '{' :: rest => scanField (pushLiteralPart parts literal) [] rest
  | '}' :: '}' :: rest => scanLoop parts (literal ++ ['}']) rest
  | '}' :: _ => .error "invalid GraphRAG format string: unmatched `\x7d`"
  | c :: rest => scanLoop parts (literal ++ [c]) rest

/-- Its inner loop over a field, up to the closing brace. -/
def scanField (parts : List GraphRagFormatPart) (field : List Char) :
    List Char → Except String (List GraphRagFormatPart)
  | [] => .error "invalid GraphRAG format string: unmatched `\x7b`"
  | '{' :: _ =>
    .error ("invalid GraphRAG format string: unmatched `\x7b` before field fragment `" ++
      String.ofList field ++ "`")
  | '}' :: rest =>
    if isSimpleFormatField field then scanLoop (parts ++ [.field field]) [] rest
    else .error ("unsupported GraphRAG format field `\x7b" ++ String.ofList field ++
      "\x7d`; expected a simple identifier matching [A-Za-z_][A-Za-z0-9_]*")
  | c :: rest => scanField parts (field ++ [c]) rest

end

def scanGraphragFormat (template : List Char) : Except String (List GraphRagFormatPart) :=
  scanLoop [] [] template

/-! ### The known fields -/

def graphragFieldRoot (field : List Char) : Option (List Char) :=
  let root := field.takeWhile fun c => c != '!' && c != ':' && c != '.' && c != '['
  if isSimpleFormatField root then some root else none

/-- Where the search for the end of a field stops. -/
inductive FieldEnd where
  | opened (rest : List Char)
  | closed (field rest : List Char)
  | missing

/-- The inner loop of `contains_graphrag_known_root_field`. -/
def fieldEnd : List Char → FieldEnd
  | [] => .missing
  | c :: rest =>
    if c = '{' then .opened (c :: rest)
    else if c = '}' then .closed [] rest
    else
      match fieldEnd rest with
      | .closed field after => .closed (c :: field) after
      | stop => stop

def FieldEnd.rest : FieldEnd → List Char
  | opened rest => rest
  | closed _ rest => rest
  | missing => []

theorem fieldEnd_length (text : List Char) : (fieldEnd text).rest.length ≤ text.length := by
  induction text with
  | nil => exact Nat.le_refl _
  | cons c text ih =>
    unfold fieldEnd
    split_ifs
    · exact Nat.le_refl _
    · exact Nat.le_succ _
    · cases hend : fieldEnd text with
      | opened rest | closed field rest | missing =>
        rw [hend] at ih
        exact Nat.le_succ_of_le ih

def containsGraphragKnownRootField (kind : PromptKind) : List Char → Bool
  | [] => false
  | c :: rest =>
    if c ≠ '{' then containsGraphragKnownRootField kind rest
    else if rest.head? = some '{' then containsGraphragKnownRootField kind rest.tail
    else
      match _hend : fieldEnd rest with
      | .opened after => containsGraphragKnownRootField kind after
      | .closed field after =>
        if (graphragFieldRoot field).any fun root => String.ofList root ∈ kind.variableNames then true
        else containsGraphragKnownRootField kind after
      | .missing => containsGraphragKnownRootField kind rest
termination_by template => template.length
decreasing_by
  · simp
  · simp only [List.length_tail, List.length_cons]; omega
  · have := fieldEnd_length rest
    rw [_hend] at this
    exact Nat.lt_succ_of_le this
  · have := fieldEnd_length rest
    rw [_hend] at this
    exact Nat.lt_succ_of_le this
  · simp

/-! ### Conversion -/

def escapeTeraDelimiters (input : List Char) : List Char :=
  replace ['{', '#'] (stringTag ['{', '#'])
    (replace ['{', '%'] (stringTag ['{', '%'])
      (replace ['{', '{'] (stringTag ['{', '{']) input))

def GraphRagFormatPart.convert : GraphRagFormatPart → List Char
  | literal text => escapeTeraDelimiters text
  | field name => variableTag name

def convertGraphragFormatSyntax (kind : PromptKind) (content : List Char) (source : PromptSource) :
    Except PromptRender (List Char) :=
  if containsGraphragKnownRootField kind content then
    match scanGraphragFormat content with
    | .error message => .error (promptRenderError kind source message)
    | .ok parts => .ok (parts.flatMap GraphRagFormatPart.convert)
  else .ok content

def buildTemplate (tera : Tera) (kind : PromptKind) (content : List Char) (source : PromptSource) :
    Except PromptRender (PromptTemplate tera) := do
  let content ← convertGraphragFormatSyntax kind content source
  PromptTemplate.tryNew tera kind content source

end GraphLoom.Prompts
