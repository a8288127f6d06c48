/-!
# The enumerations of the schema

Python's `StrEnum` mirrors of the PostgreSQL enum types; `value` is the member's string.
-/

namespace RoadVisionAI

/-- `knowledge_documents.status`, by its `CHECK`. -/
inductive DocumentStatus where
  | PENDING | INDEXING | INDEXED | ERROR
deriving DecidableEq, Repr

/-- `inspection_status`. -/
inductive InspectionStatus where
  | EN_ATTENTE | EN_COURS | TERMINEE | ANNULEE | VALIDEE | ERREUR
deriving DecidableEq, Repr

/-- `maintenance_strategy`. -/
inductive MaintenanceStrategy where
  | COLMATAGE | RESURFACAGE | RECONSTRUCTION | REHABILITATION | SURVEILLANCE
deriving DecidableEq, Repr

/-- `model_status`. -/
inductive ModelStatus where
  | TRAINING | VALIDATING | STAGING | PRODUCTION | DEPRECATED | FAILED
deriving DecidableEq, Repr

/-- `priority_level`. -/
inductive PriorityLevel where
  | P0_CRITIQUE | P1_URGENT | P2_PLANIFIE | P3_SURVEILLANCE | P4_EXCELLENT
deriving DecidableEq, Repr

/-- `rec_status`. -/
inductive RecStatus where
  | EN_ATTENTE | VALIDEE | MODIFIEE | REJETEE
deriving DecidableEq, Repr

/-- `severity_level`. -/
inductive SeverityLevel where
  | FAIBLE | MODERE | GRAVE | CRITIQUE
deriving DecidableEq, Repr

/-- `user_role`. -/
inductive UserRole where
  | ADMINISTRATOR | ROAD_ENGINEER | INSPECTION_AGENT
deriving DecidableEq, Repr

def MaintenanceStrategy.value : MaintenanceStrategy → String
  | .COLMATAGE => "COLMATAGE"
  | .RESURFACAGE => "RESURFACAGE"
  | .RECONSTRUCTION => "RECONSTRUCTION"
  | .REHABILITATION => "REHABILITATION"
  | .SURVEILLANCE => "SURVEILLANCE"

def PriorityLevel.value : PriorityLevel → String
  | .P0_CRITIQUE => "P0_CRITIQUE"
  | .P1_URGENT => "P1_URGENT"
  | .P2_PLANIFIE => "P2_PLANIFIE"
  | .P3_SURVEILLANCE => "P3_SURVEILLANCE"
  | .P4_EXCELLENT => "P4_EXCELLENT"

def SeverityLevel.value : SeverityLevel → String
  | .FAIBLE => "FAIBLE"
  | .MODERE => "MODERE"
  | .GRAVE => "GRAVE"
  | .CRITIQUE => "CRITIQUE"

def UserRole.value : UserRole → String
  | .ADMINISTRATOR => "ADMINISTRATOR"
  | .ROAD_ENGINEER => "ROAD_ENGINEER"
  | .INSPECTION_AGENT => "INSPECTION_AGENT"

/-- `MaintenanceStrategy(value)`: `none` where Python raises `ValueError`. -/
def MaintenanceStrategy.ofValue? (value : String) : Option MaintenanceStrategy :=
  [.COLMATAGE, .RESURFACAGE, .RECONSTRUCTION, .REHABILITATION, .SURVEILLANCE].find?
    fun strategy => strategy.value = value

end RoadVisionAI
