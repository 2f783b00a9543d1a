import GraphLoom.Foundation.Replace

/-!
# Prompts

The kinds of prompts, the templates of prompts and their rendering.  The template language is that
of an engine; what this development relies on is listed in `Tera.Documented`.
-/

namespace GraphLoom.Prompts

open GraphLoom.Foundation

/-! ### Kinds of prompts -/

inductive PromptKind where
  | extractGraph
  | summarizeDescriptions
  | extractClaims
  | communityReportGraph
  | communityReportText
  | basicSearch
  | driftSearch
  | driftReduce
  | globalSearchMap
  | globalSearchReduce
  | globalSearchKnowledge
  | localSearch
  | questionGeneration
deriving DecidableEq, Repr

namespace PromptKind

def filename : PromptKind → String
  | extractGraph => "extract_graph.txt"
  | summarizeDescriptions => "summarize_descriptions.txt"
  | extractClaims => "extract_claims.txt"
  | communityReportGraph => "community_report_graph.txt"
  | communityReportText => "community_report_text.txt"
  | basicSearch => "basic_search_system_prompt.txt"
  | driftSearch => "drift_search_system_prompt.txt"
  | driftReduce => "drift_reduce_prompt.txt"
  | globalSearchMap => "global_search_map_system_prompt.txt"
  | globalSearchReduce => "global_search_reduce_system_prompt.txt"
  | globalSearchKnowledge => "global_search_knowledge_system_prompt.txt"
  | localSearch => "local_search_system_prompt.txt"
  | questionGeneration => "question_gen_system_prompt.txt"

/-- The variables that the workflows supply. -/
def variableNames : PromptKind → List String
  | extractGraph => ["entity_types", "input_text"]
  | summarizeDescriptions => ["entity_name", "description_list", "max_length"]
  | extractClaims => ["entity_specs", "claim_description", "input_text"]
  | communityReportGraph | communityReportText => ["input_text", "max_report_length"]
  | basicSearch | localSearch | driftReduce => ["context_data", "response_type"]
  | driftSearch => ["context_data", "response_type", "global_query", "followups"]
  | globalSearchMap => ["context_data", "max_length"]
  | globalSearchReduce => ["report_data", "response_type", "max_length"]
  | globalSearchKnowledge => []
  | questionGeneration => ["question_count", "context_data"]

def name : PromptKind → String
  | extractGraph => "ExtractGraph"
  | summarizeDescriptions => "SummarizeDescriptions"
  | extractClaims => "ExtractClaims"
  | communityReportGraph => "CommunityReportGraph"
  | communityReportText => "CommunityReportText"
  | basicSearch => "BasicSearch"
  | driftSearch => "DriftSearch"
  | driftReduce => "DriftReduce"
  | globalSearchMap => "GlobalSearchMap"
  | globalSearchReduce => "GlobalSearchReduce"
  | globalSearchKnowledge => "GlobalSearchKnowledge"
  | localSearch => "LocalSearch"
  | questionGeneration => "QuestionGeneration"

end PromptKind

/-! ### Sources and errors -/

inductive PromptSource where
  | builtIn
  | explicit (path : String)
  | project (path : String)
  | inline
deriving DecidableEq, Repr

def PromptSource.display : PromptSource → String
  | builtIn => "built-in defaults"
  | explicit path => "explicit path " ++ path
  | project path => "project path " ++ path
  | inline => "inline configuration"

/-- `GraphLoomError::PromptRender`. -/
structure PromptRender where
  kind : String
  name : String
  promptSource : String
  message : String
deriving DecidableEq, Repr

def promptRenderError (kind : PromptKind) (source : PromptSource) (message : String) :
    PromptRender :=
  ⟨kind.name, kind.filename, source.display, message⟩

/-! ### The template engine -/

/-- The values of a context by their names. -/
abbrev Context := String → Option (List Char)

/-- A template engine.  Adding a template compiles it. -/
structure Tera where
  Template : Type
  addRawTemplate : (name : String) → (content : List Char) → Except String Template
  render : Template → Context → Except String (List Char)

/-- An identifier `[A-Za-z_][A-Za-z0-9_]*`. -/
def isSimpleFormatField : List Char → Bool
  | [] => false
  | c :: cs => (c.isAlpha || c == '_') && cs.all fun c => c.isAlphanum || c == '_'

/-- The names of templates whose values the engine escapes. -/
def autoEscaped (name : String) : Bool :=
  [".html", ".htm", ".xml"].any fun suffix => suffix.toList.isSuffixOf name.toList

/-- A tag, a statement or a comment of the engine starts here. -/
def opensTag : List Char → Bool
  | '{' :: c :: _ => c == '{' || c == '%' || c == '#'
  | _ => false

/-- `{{ name }}`. -/
def variableTag (name : List Char) : List Char := ['{', '{', ' '] ++ name ++ [' ', '}', '}']

/-- `{{ "text" }}`. -/
def stringTag (text : List Char) : List Char :=
  ['{', '{', ' ', '"'] ++ text ++ ['"', ' ', '}', '}']

namespace Tera

variable (tera : Tera)

/-- The text is a template, and it renders to `out` wherever `out` has all it needs. -/
def Prints (name : String) (content : List Char) (out : Context → Option (List Char)) : Prop :=
  ∃ template, tera.addRawTemplate name content = .ok template ∧
    ∀ context text, out context = some text → tera.render template context = .ok text

/-- The text is no template. -/
def Rejects (name : String) (content : List Char) : Prop :=
  ∃ message, tera.addRawTemplate name content = .error message

/-- What is put before the output of the rest. -/
def before (first : Context → Option (List Char)) (out : Context → Option (List Char)) :
    Context → Option (List Char) :=
  fun context => do return (← first context) ++ (← out context)

/-- A front of a template that prints `first` and leaves the rest as it is. -/
structure PrintsBefore (name : String) (front : List Char)
    (first : Context → Option (List Char)) (rest : List Char) : Prop where
  prints : ∀ out, tera.Prints name rest out → tera.Prints name (front ++ rest) (before first out)
  rejects : tera.Rejects name rest → tera.Rejects name (front ++ rest)

/-- The documented behaviour of the engine that the prompts rely on. -/
structure Documented : Prop where
  empty : ∀ name, tera.Prints name [] fun _ => some []
  /-- Text outside of tags is copied. -/
  text : ∀ name c rest, opensTag (c :: rest) = false →
    tera.PrintsBefore name [c] (fun _ => some [c]) rest
  /-- A variable prints its value. -/
  variableTag : ∀ name field rest, autoEscaped name = false → isSimpleFormatField field = true →
    tera.PrintsBefore name (variableTag field) (fun context => context (String.ofList field)) rest
  /-- A string without quotes and escapes prints its text. -/
  stringTag : ∀ name text rest, autoEscaped name = false → '"' ∉ text → '\\' ∉ text →
    tera.PrintsBefore name (stringTag text) (fun _ => some text) rest
  /-- An expression does not begin with a brace. -/
  brace : ∀ name field rest, isSimpleFormatField field = true →
    tera.Rejects name ('{' :: (Prompts.variableTag field ++ rest))

end Tera

/-! ### Templates and prompts -/

def normalizePythonNewlines (content : List Char) : List Char :=
  if '\r' ∈ content then replace ['\r'] ['\n'] (replace ['\r', '\n'] ['\n'] content) else content

structure PromptTemplate (tera : Tera) where
  kind : PromptKind
  content : List Char
  source : PromptSource
  template : tera.Template

def PromptTemplate.tryNew (tera : Tera) (kind : PromptKind) (content : List Char)
    (source : PromptSource) : Except PromptRender (PromptTemplate tera) :=
  let content := normalizePythonNewlines content
  match tera.addRawTemplate kind.filename content with
  | .error message => .error (promptRenderError kind source message)
  | .ok template => .ok { kind, content, source, template }

/-- A template with the values it is rendered with. -/
structure Prompt (tera : Tera) where
  kind : PromptKind
  template : tera.Template
  context : Context
  source : PromptSource

def PromptTemplate.bind {tera : Tera} (prompt : PromptTemplate tera) (values : Context) :
    Except PromptRender (Prompt tera) :=
  match prompt.kind.variableNames.find? fun variableName => (values variableName).isNone with
  | some missing => .error (promptRenderError prompt.kind prompt.source
      ("missing required prompt context value `" ++ missing ++ "`"))
  | none => .ok ⟨prompt.kind, prompt.template, values, prompt.source⟩

def Prompt.render {tera : Tera} (prompt : Prompt tera) : Except PromptRender (List Char) :=
  match tera.render prompt.template prompt.context with
  | .error message => .error (promptRenderError prompt.kind prompt.source message)
  | .ok text => .ok text

end GraphLoom.Prompts
