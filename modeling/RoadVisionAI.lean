import RoadVisionAI.Agents.Equiv.RecommendationPipeline
import RoadVisionAI.Agents.RecommendationPipeline
import RoadVisionAI.Auth.Equiv.Lockout
import RoadVisionAI.Auth.Equiv.LoginTrail
import RoadVisionAI.Auth.Equiv.Security
import RoadVisionAI.Auth.Equiv.Statements
import RoadVisionAI.Auth.Equiv.TokenDiscipline
import RoadVisionAI.Auth.Security
import RoadVisionAI.Auth.Service
import RoadVisionAI.Dashboard.Equiv.Coherence
import RoadVisionAI.Dashboard.Equiv.DeletedRows
import RoadVisionAI.Dashboard.Equiv.Summary
import RoadVisionAI.Dashboard.Service
import RoadVisionAI.Dashboard.SnapshotJob
import RoadVisionAI.Db.Columns
import RoadVisionAI.Db.Equiv.Columns
import RoadVisionAI.Db.Models
import RoadVisionAI.Detection.Detector
import RoadVisionAI.Detection.DetectorCache
import RoadVisionAI.Detection.Equiv.Artifacts
import RoadVisionAI.Detection.Equiv.AuditTrail
import RoadVisionAI.Detection.Equiv.Detector
import RoadVisionAI.Detection.Equiv.DetectorCache
import RoadVisionAI.Detection.Equiv.Frame
import RoadVisionAI.Detection.Equiv.Lifecycle
import RoadVisionAI.Detection.Equiv.RegistryStatements
import RoadVisionAI.Detection.Equiv.SingleProduction
import RoadVisionAI.Detection.ModelRegistry
import RoadVisionAI.Engines.CdcFormula
import RoadVisionAI.Engines.CdcLaws
import RoadVisionAI.Engines.Equiv.Breakdown
import RoadVisionAI.Engines.Equiv.ExceptionClosure
import RoadVisionAI.Engines.Equiv.FirstMatch
import RoadVisionAI.Engines.Equiv.Merging
import RoadVisionAI.Engines.Equiv.MoreDamage
import RoadVisionAI.Engines.Equiv.PciEngine
import RoadVisionAI.Engines.Equiv.RuleEngine
import RoadVisionAI.Engines.Equiv.SeededRules
import RoadVisionAI.Engines.Equiv.SurveyInvariance
import RoadVisionAI.Engines.PciEngine
import RoadVisionAI.Engines.RuleDsl
import RoadVisionAI.Engines.RuleEngine
import RoadVisionAI.Engines.SeededRules
import RoadVisionAI.Enums
import RoadVisionAI.Gis.Equiv.Geometry
import RoadVisionAI.Gis.Locations
import RoadVisionAI.Inspections.Equiv.Accountability
import RoadVisionAI.Inspections.Equiv.Audit
import RoadVisionAI.Inspections.Equiv.Completion
import RoadVisionAI.Inspections.Equiv.Coverage
import RoadVisionAI.Inspections.Equiv.NoLostUpdate
import RoadVisionAI.Inspections.Equiv.Numbering
import RoadVisionAI.Inspections.Equiv.Phases
import RoadVisionAI.Inspections.Equiv.RoadImages
import RoadVisionAI.Inspections.Equiv.SM1
import RoadVisionAI.Inspections.Equiv.SoftDelete
import RoadVisionAI.Inspections.Equiv.Statements
import RoadVisionAI.Inspections.Equiv.Trail
import RoadVisionAI.Inspections.Equiv.Update
import RoadVisionAI.Inspections.RoadImages
import RoadVisionAI.Inspections.Row
import RoadVisionAI.Inspections.System
import RoadVisionAI.Inspections.Trail
import RoadVisionAI.Inspections.Update
import RoadVisionAI.Knowledge.Chunking
import RoadVisionAI.Knowledge.Equiv.Catalogue
import RoadVisionAI.Knowledge.Equiv.Chunking
import RoadVisionAI.Knowledge.Equiv.Guard
import RoadVisionAI.Knowledge.Equiv.Ingestion
import RoadVisionAI.Knowledge.Equiv.Provenance
import RoadVisionAI.Knowledge.Equiv.TwoStores
import RoadVisionAI.Knowledge.Equiv.Windows
import RoadVisionAI.Knowledge.Search
import RoadVisionAI.Knowledge.Service
import RoadVisionAI.Python.Dict
import RoadVisionAI.Python.Dumps
import RoadVisionAI.Python.Equiv.Dumps
import RoadVisionAI.Python.Equiv.Format
import RoadVisionAI.Python.Equiv.HalfEven
import RoadVisionAI.Python.Equiv.Json
import RoadVisionAI.Python.Equiv.Number
import RoadVisionAI.Python.Equiv.Str
import RoadVisionAI.Python.Equiv.Template
import RoadVisionAI.Python.Exception
import RoadVisionAI.Python.Format
import RoadVisionAI.Python.Json
import RoadVisionAI.Python.Number
import RoadVisionAI.Python.Rounding
import RoadVisionAI.Python.Str
import RoadVisionAI.Recommendations.Equiv.Availability
import RoadVisionAI.Recommendations.Equiv.Explained
import RoadVisionAI.Recommendations.Equiv.Grounding
import RoadVisionAI.Recommendations.Equiv.OneRecommendation
import RoadVisionAI.Recommendations.Rows
import RoadVisionAI.Recommendations.Service
import RoadVisionAI.Relational.Aggregates
import RoadVisionAI.Relational.Pagination
import RoadVisionAI.Reports.Equiv.Archive
import RoadVisionAI.Reports.Equiv.Orphans
import RoadVisionAI.Reports.Service
import RoadVisionAI.Repositories.Equiv.Listings
import RoadVisionAI.Repositories.Listings
import RoadVisionAI.Transition.Holdings
import RoadVisionAI.Transition.Ledger
import RoadVisionAI.Transition.LockedRow
import RoadVisionAI.Transition.LockedTable
import RoadVisionAI.Transition.Machine
import RoadVisionAI.Transition.Past
import RoadVisionAI.Transition.Projection
import RoadVisionAI.Weighted.CappedSum
import RoadVisionAI.Weighted.Copies
import RoadVisionAI.Weighted.Mean
import RoadVisionAI.Windows.Overlapping
import RoadVisionAI.Windows.Sorted
import RoadVisionAI.Workers.AnalysisWorker
import RoadVisionAI.Workers.Equiv.AnalysisWorker
import RoadVisionAI.Workers.Equiv.DominantType
import RoadVisionAI.Workers.Equiv.Storage
