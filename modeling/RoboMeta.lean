import RoboMeta.Lib.Scan
import RoboMeta.Lib.Words
import RoboMeta.Lib.RoseTree
import RoboMeta.Lib.Outcome
import RoboMeta.Lib.Linked
import RoboMeta.Lib.UnionFind
import RoboMeta.Lib.Ranking
import RoboMeta.Lib.Process
import RoboMeta.Lib.Tasks
import RoboMeta.Lib.Grammar
import RoboMeta.Lib.Fitting
import RoboMeta.Lib.Firsts
import RoboMeta.Python
import RoboMeta.SqlGuard
import RoboMeta.ReferenceLexer
import RoboMeta.SqlGuardPasses
import RoboMeta.SqlGuardSound
import RoboMeta.SqlGuardLayered
import RoboMeta.SqlGuardComplete
import RoboMeta.SqlGuardStable
import RoboMeta.SqlGrammar
import RoboMeta.ReadOnly
import RoboMeta.Artifact
import RoboMeta.Sqlglot
import RoboMeta.SqlScope
import RoboMeta.ArtifactGuard
import RoboMeta.ArtifactContainment
import RoboMeta.MandatoryFilters
import RoboMeta.Lookups
import RoboMeta.Grants
import RoboMeta.FilterScope
import RoboMeta.FilterShapes
import RoboMeta.CanonicalTexts
import RoboMeta.Resolved
import RoboMeta.Readings
import RoboMeta.FreshNames
import RoboMeta.Renaming
import RoboMeta.Namespaces
import RoboMeta.JsonValue
import RoboMeta.ArtifactGuardJson
import RoboMeta.QueryRunner
import RoboMeta.QueryRunnerSource
import RoboMeta.ResultCaps
import RoboMeta.EntityResolution
import RoboMeta.Probes
import RoboMeta.Store
import RoboMeta.Selector
import RoboMeta.Bundle
import RoboMeta.SecurityPolicies
import RoboMeta.Vocabulary
import RoboMeta.RankingOrder
import RoboMeta.TermScores
import RoboMeta.MatchedVocabulary
import RoboMeta.BundleGuard
import RoboMeta.SchemaContext
import RoboMeta.UsableColumns
import RoboMeta.Decision
import RoboMeta.StorageOrder
import RoboMeta.Admission
import RoboMeta.TenantIsolation
import RoboMeta.DecisionRuns
import RoboMeta.QueryRuns
import RoboMeta.Schemas
import RoboMeta.JoinGraph
import RoboMeta.JoinStages
import RoboMeta.JoinGroups
import RoboMeta.ResolveEntities
import RoboMeta.MetadataRepository
import RoboMeta.DecisionPostgres
import RoboMeta.MappedTables
import RoboMeta.PostgresJoinGroups
import RoboMeta.BridgeDirections
import RoboMeta.AnswerOrder
import RoboMeta.TableLimit
import RoboMeta.MappingEntities
import RoboMeta.MetaPostgres
import RoboMeta.TableLookup
import RoboMeta.ScoreGap
import RoboMeta.MergedCandidates
import RoboMeta.JoinExpansion
import RoboMeta.ExpansionOrder
import RoboMeta.Lib.Like
import RoboMeta.Lib.PgLex
import RoboMeta.MatchedColumns
import RoboMeta.ProbeTokens
import RoboMeta.ProbeMatching
import RoboMeta.ProbeTables
import RoboMeta.CodeLabelRows
import RoboMeta.AmbiguousMentions
import RoboMeta.Lib.Positional
import RoboMeta.ValidityWindows
import RoboMeta.MergeAxes
import RoboMeta.Lib.Resume
import RoboMeta.Vectorizer
import RoboMeta.Lib.Cypher
import RoboMeta.MetaGraph
import RoboMeta.Lib.JsonText
import RoboMeta.Lib.Lines
import RoboMeta.HydeParsing
import RoboMeta.Lib.Nearest
import RoboMeta.VectorSearch
import RoboMeta.RecordedBridges
import RoboMeta.GraphFetches
import RoboMeta.HydeText
import RoboMeta.SubjectAreas
import RoboMeta.DecisionService
import RoboMeta.DecisionAnswers
import RoboMeta.Lib.OnDemand
import RoboMeta.PoolRuns
import RoboMeta.StoreRefinement
import RoboMeta.AuthTokens
import RoboMeta.TableSchemas
import RoboMeta.ResolveQuestion
import RoboMeta.VectorizerRuns
