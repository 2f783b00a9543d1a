import GraphLoom.Query.Global.Dynamic
import GraphLoom.Query.Local.Context

/-!
# Configuration of queries

The configurations of the search methods and their checks.  A check fails with a message about the
first value that is not valid.  Whether the sum of two floats exceeds one is a parameter.
-/

namespace GraphLoom.Query

open Foundation

/-! ### Values -/

def validateModelId (value field : String) : Except String Unit :=
  if trim value = "" then .error (field ++ " must not be empty") else .ok ()

def validatePositive (value : ℕ) (field : String) : Except String Unit :=
  if value = 0 then .error (field ++ " must be greater than zero") else .ok ()

def validateOptionalPositive (value : Option ℕ) (field : String) : Except String Unit :=
  if value = some 0 then .error (field ++ " must be greater than zero when configured") else .ok ()

/-- The bound is a float and its text. -/
def validateBetween (upper : BitVec 64) (bound : String) (value : F64) (field : String) :
    Except String Unit :=
  if value.between upper then .ok ()
  else .error (field ++ " must be finite and between 0 and " ++ bound)

def validateRatio (value : F64) (field : String) : Except String Unit :=
  validateBetween 0x3FF0000000000000#64 "1" value field

def validateTemperature (value : F64) (field : String) : Except String Unit :=
  validateBetween 0x4000000000000000#64 "2" value field

/-- Two proportions of one whole. -/
def validateSum (sumAboveOne : F64 → F64 → Bool) (first second : F64) (fields : String) :
    Except String Unit :=
  if sumAboveOne first second then .error (fields ++ " must not exceed 1") else .ok ()

/-! ### Search methods -/

structure BasicSearchConfig where
  prompt : Option String
  completionModelId : String
  embeddingModelId : String
  k : ℕ
  maxContextTokens : ℕ
deriving DecidableEq, Repr

def BasicSearchConfig.validate (config : BasicSearchConfig) : Except String Unit := do
  validateModelId config.completionModelId "completion_model_id"
  validateModelId config.embeddingModelId "embedding_model_id"
  validatePositive config.k "k"
  validatePositive config.maxContextTokens "max_context_tokens"

structure LocalSearchConfig extends Local.LocalSearchConfig where
  prompt : Option String
  completionModelId : String
  embeddingModelId : String

def LocalSearchConfig.validate (sumAboveOne : F64 → F64 → Bool) (config : LocalSearchConfig) :
    Except String Unit := do
  validateModelId config.completionModelId "completion_model_id"
  validateModelId config.embeddingModelId "embedding_model_id"
  validateRatio config.textUnitProp "text_unit_prop"
  validateRatio config.communityProp "community_prop"
  validateSum sumAboveOne config.textUnitProp config.communityProp
    "text_unit_prop + community_prop"
  validatePositive config.topKEntities "top_k_entities"
  validatePositive config.topKRelationships "top_k_relationships"
  validatePositive config.maxContextTokens "max_context_tokens"

structure GlobalSearchConfig extends Global.GlobalSearchConfig where
  mapPrompt : Option String
  reducePrompt : Option String
  knowledgePrompt : Option String
  completionModelId : String
  maxContextTokens : ℕ
  dataMaxTokens : ℕ
  mapMaxLength : ℕ
  reduceMaxLength : ℕ
  dynamicSearchNumRepeats : ℕ
  dynamicSearchUseSummary : Bool

def GlobalSearchConfig.validate (config : GlobalSearchConfig) : Except String Unit := do
  validateModelId config.completionModelId "completion_model_id"
  validatePositive config.maxContextTokens "max_context_tokens"
  validatePositive config.dataMaxTokens "data_max_tokens"
  validatePositive config.mapMaxLength "map_max_length"
  validatePositive config.reduceMaxLength "reduce_max_length"
  validatePositive config.dynamicSearchNumRepeats "dynamic_search_num_repeats"
  if config.dynamicSearchMaxLevel < 0 then
    .error "dynamic_search_max_level must be non-negative"
  else .ok ()

structure DriftSearchConfig where
  prompt : Option String
  reducePrompt : Option String
  completionModelId : String
  embeddingModelId : String
  dataMaxTokens : ℕ
  reduceMaxTokens : Option ℕ
  reduceTemperature : F64
  reduceMaxCompletionTokens : Option ℕ
  concurrency : ℕ
  driftKFollowups : ℕ
  primerFolds : ℕ
  primerLlmMaxTokens : ℕ
  nDepth : ℕ
  localSearchTextUnitProp : F64
  localSearchCommunityProp : F64
  localSearchTopKMappedEntities : ℕ
  localSearchTopKRelationships : ℕ
  localSearchMaxDataTokens : ℕ
  localSearchTemperature : F64
  localSearchTopP : F64
  localSearchN : ℕ
  localSearchLlmMaxGenTokens : Option ℕ
  localSearchLlmMaxGenCompletionTokens : Option ℕ

def DriftSearchConfig.validate (sumAboveOne : F64 → F64 → Bool) (config : DriftSearchConfig) :
    Except String Unit := do
  validateModelId config.completionModelId "completion_model_id"
  validateModelId config.embeddingModelId "embedding_model_id"
  validatePositive config.dataMaxTokens "data_max_tokens"
  validateOptionalPositive config.reduceMaxTokens "reduce_max_tokens"
  validateTemperature config.reduceTemperature "reduce_temperature"
  validateOptionalPositive config.reduceMaxCompletionTokens "reduce_max_completion_tokens"
  validatePositive config.concurrency "concurrency"
  validatePositive config.driftKFollowups "drift_k_followups"
  validatePositive config.primerLlmMaxTokens "primer_llm_max_tokens"
  validatePositive config.nDepth "n_depth"
  validateRatio config.localSearchTextUnitProp "local_search_text_unit_prop"
  validateRatio config.localSearchCommunityProp "local_search_community_prop"
  validateSum sumAboveOne config.localSearchTextUnitProp config.localSearchCommunityProp
    "local_search_text_unit_prop + local_search_community_prop"
  validatePositive config.localSearchTopKMappedEntities "local_search_top_k_mapped_entities"
  validatePositive config.localSearchTopKRelationships "local_search_top_k_relationships"
  validatePositive config.localSearchMaxDataTokens "local_search_max_data_tokens"
  validateTemperature config.localSearchTemperature "local_search_temperature"
  validateRatio config.localSearchTopP "local_search_top_p"
  validatePositive config.localSearchN "local_search_n"
  validateOptionalPositive config.localSearchLlmMaxGenTokens "local_search_llm_max_gen_tokens"
  validateOptionalPositive config.localSearchLlmMaxGenCompletionTokens
    "local_search_llm_max_gen_completion_tokens"

end GraphLoom.Query
