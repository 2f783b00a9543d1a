import GraphLoom.Chunking.Equiv.TokenChunker
import GraphLoom.Communities.Equiv.Context
import GraphLoom.Communities.Equiv.Extraction
import GraphLoom.Communities.Equiv.Names
import GraphLoom.Config.Equiv.Load
import GraphLoom.Embeddings.Equiv.Execute
import GraphLoom.Explainability.Equiv.Paging
import GraphLoom.Explainability.Equiv.Shutdown
import GraphLoom.Explainability.Equiv.Sse
import GraphLoom.Graph.Equiv.Extraction
import GraphLoom.Graph.Equiv.Finalize
import GraphLoom.Graph.Equiv.Gleaning
import GraphLoom.Graph.Equiv.Summarize
import GraphLoom.Init.Equiv.Transaction
import GraphLoom.Llm.Equiv.Cached
import GraphLoom.Llm.Equiv.Claims
import GraphLoom.Llm.Equiv.GraphRoundTrip
import GraphLoom.Llm.Equiv.JsonObject
import GraphLoom.Project.Equiv.Home
import GraphLoom.PromptTune.Equiv.ExtractGraph
import GraphLoom.Query.Drift.Equiv.Primer
import GraphLoom.Query.Drift.Equiv.Repair
import GraphLoom.Query.Drift.Equiv.Search
import GraphLoom.Query.Equiv.Engine
import GraphLoom.Query.Equiv.IndexRoundTrip
import GraphLoom.Query.Equiv.Streaming
import GraphLoom.Query.Global.Equiv.Context
import GraphLoom.Query.Global.Equiv.DynamicForest
import GraphLoom.Query.Global.Equiv.Reduce
import GraphLoom.Query.Local.Equiv.Expansion
import GraphLoom.Storage.Equiv.Containment
import GraphLoom.Storage.Equiv.Handles
import GraphLoom.Storage.Equiv.Session
import GraphLoom.Studio.Equiv.BasicRun
import GraphLoom.Studio.Equiv.Projection
import GraphLoom.Studio.Equiv.SemanticGlobal
import GraphLoom.TextUnits.Equiv.Final
import GraphLoom.Update.Equiv.Covariates
import GraphLoom.Update.Equiv.HumanReadableIds
