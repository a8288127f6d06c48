import RoadVisionAI.Engines.RuleEngine

/-!
# The seeded rule base (`03_seed_rules.sql`)

The nine rules of the reference deployment, with their texts as the seed script inserts them.
-/

namespace RoadVisionAI.RuleEngine

/-- The justification of `R010_CRITIQUE_RECONSTRUCTION`. -/
def r010Justification : String :=
  "PCI de \x7bpci\x7d (priorité \x7bpriority\x7d) : la chaussée a atteint un niveau de ruine structurelle. Une reconstruction complète du corps de chaussée est requise ; intervention à engager sous 30 jours."

/-- `R010_CRITIQUE_RECONSTRUCTION`. -/
def r010CritiqueReconstruction : Rule where
  code := "R010_CRITIQUE_RECONSTRUCTION"
  name := "Reconstruction — section critique"
  condition := "\x7b\"pci_max\": 40\x7d"
  action :=
    "\x7b\"strategy\": \"RECONSTRUCTION\", \"estimated_days\": 90, \"deadline_days\": 30,\n   \"cost_min_mad\": 1500000, \"cost_max_mad\": 4000000,\n   \"justification\": \"" ++
      r010Justification ++ "\"\x7d"
  priority := 10
  isActive := true

/-- The justification of `R020_GRAVE_STRUCTUREL_REHABILITATION`. -/
def r020Justification : String :=
  "PCI de \x7bpci\x7d avec dominance \x7bdominant\x7d : les désordres touchent la structure de la chaussée. Réhabilitation (reprise des couches de surface et purges localisées) sous 60 jours."

/-- `R020_GRAVE_STRUCTUREL_REHABILITATION`. -/
def r020GraveStructurelRehabilitation : Rule where
  code := "R020_GRAVE_STRUCTUREL_REHABILITATION"
  name := "Réhabilitation — dégradations structurelles dominantes"
  condition :=
    "\x7b\"pci_min\": 40, \"pci_max\": 55, \"dominant_type_in\": [\"POTHOLE\", \"ALLIGATOR_CRACK\", \"RUTTING\"]\x7d"
  action :=
    "\x7b\"strategy\": \"REHABILITATION\", \"estimated_days\": 45, \"deadline_days\": 60,\n   \"cost_min_mad\": 400000, \"cost_max_mad\": 1200000,\n   \"justification\": \"" ++
      r020Justification ++ "\"\x7d"
  priority := 20
  isActive := true

/-- The justification of `R021_GRAVE_DEFAUT_RESURFACAGE`. -/
def r021Justification : String :=
  "PCI de \x7bpci\x7d (\x7bdetections\x7d détection(s), dominante \x7bdominant\x7d) : dégradation généralisée de la couche de roulement sans ruine structurelle avérée. Resurfaçage programmé sous 90 jours."

/-- `R021_GRAVE_DEFAUT_RESURFACAGE`. -/
def r021GraveDefautResurfacage : Rule where
  code := "R021_GRAVE_DEFAUT_RESURFACAGE"
  name := "Resurfaçage — état grave, dégradations de surface"
  condition := "\x7b\"pci_min\": 40, \"pci_max\": 55\x7d"
  action :=
    "\x7b\"strategy\": \"RESURFACAGE\", \"estimated_days\": 30, \"deadline_days\": 90,\n   \"cost_min_mad\": 250000, \"cost_max_mad\": 700000,\n   \"justification\": \"" ++
      r021Justification ++ "\"\x7d"
  priority := 25
  isActive := true

/-- The justification of `R030_MODERE_SURFACE_RESURFACAGE`. -/
def r030Justification : String :=
  "PCI de \x7bpci\x7d avec dominance \x7bdominant\x7d : usure de la couche de roulement (arrachements/orniérage). Resurfaçage préventif à planifier sous 6 mois avant aggravation."

/-- `R030_MODERE_SURFACE_RESURFACAGE`. -/
def r030ModereSurfaceResurfacage : Rule where
  code := "R030_MODERE_SURFACE_RESURFACAGE"
  name := "Resurfaçage — usure de surface dominante"
  condition :=
    "\x7b\"pci_min\": 55, \"pci_max\": 70, \"dominant_type_in\": [\"RAVELLING\", \"RUTTING\"]\x7d"
  action :=
    "\x7b\"strategy\": \"RESURFACAGE\", \"estimated_days\": 21, \"deadline_days\": 180,\n   \"cost_min_mad\": 150000, \"cost_max_mad\": 450000,\n   \"justification\": \"" ++
      r030Justification ++ "\"\x7d"
  priority := 30
  isActive := true

/-- The justification of `R031_MODERE_FISSURES_COLMATAGE`. -/
def r031Justification : String :=
  "PCI de \x7bpci\x7d avec dominance \x7bdominant\x7d : fissuration active. Colmatage des fissures sous 120 jours pour prévenir les infiltrations d'eau et la dégradation accélérée du corps de chaussée."

/-- `R031_MODERE_FISSURES_COLMATAGE`. -/
def r031ModereFissuresColmatage : Rule where
  code := "R031_MODERE_FISSURES_COLMATAGE"
  name := "Colmatage — fissuration dominante, état modéré"
  condition :=
    "\x7b\"pci_min\": 55, \"pci_max\": 70, \"dominant_type_in\": [\"LONGITUDINAL_CRACK\", \"LATERAL_CRACK\", \"EDGE_CRACKING\", \"ALLIGATOR_CRACK\"]\x7d"
  action :=
    "\x7b\"strategy\": \"COLMATAGE\", \"estimated_days\": 10, \"deadline_days\": 120,\n   \"cost_min_mad\": 60000, \"cost_max_mad\": 180000,\n   \"justification\": \"" ++
      r031Justification ++ "\"\x7d"
  priority := 35
  isActive := true

/-- The justification of `R032_MODERE_DEFAUT_COLMATAGE`. -/
def r032Justification : String :=
  "PCI de \x7bpci\x7d : dégradations modérées diffuses. Entretien curatif localisé (colmatage) à programmer sous 6 mois."

/-- `R032_MODERE_DEFAUT_COLMATAGE`. -/
def r032ModereDefautColmatage : Rule where
  code := "R032_MODERE_DEFAUT_COLMATAGE"
  name := "Colmatage — état modéré (règle générale)"
  condition := "\x7b\"pci_min\": 55, \"pci_max\": 70\x7d"
  action :=
    "\x7b\"strategy\": \"COLMATAGE\", \"estimated_days\": 10, \"deadline_days\": 180,\n   \"cost_min_mad\": 50000, \"cost_max_mad\": 150000,\n   \"justification\": \"" ++
      r032Justification ++ "\"\x7d"
  priority := 39
  isActive := true

/-- The justification of `R040_BON_FISSURES_COLMATAGE_PREVENTIF`. -/
def r040Justification : String :=
  "PCI de \x7bpci\x7d avec fissuration naissante (\x7bdominant\x7d) : colmatage préventif à intégrer au programme annuel d'entretien — coût minime aujourd'hui contre réhabilitation coûteuse demain."

/-- `R040_BON_FISSURES_COLMATAGE_PREVENTIF`. -/
def r040BonFissuresColmatagePreventif : Rule where
  code := "R040_BON_FISSURES_COLMATAGE_PREVENTIF"
  name := "Colmatage préventif — fissuration naissante"
  condition :=
    "\x7b\"pci_min\": 70, \"pci_max\": 85, \"min_detections\": 1, \"dominant_type_in\": [\"LONGITUDINAL_CRACK\", \"LATERAL_CRACK\", \"EDGE_CRACKING\"]\x7d"
  action :=
    "\x7b\"strategy\": \"COLMATAGE\", \"estimated_days\": 5, \"deadline_days\": 365,\n   \"cost_min_mad\": 20000, \"cost_max_mad\": 80000,\n   \"justification\": \"" ++
      r040Justification ++ "\"\x7d"
  priority := 40
  isActive := true

/-- The justification of `R041_BON_SURVEILLANCE`. -/
def r041Justification : String :=
  "PCI de \x7bpci\x7d : section en bon état. Surveillance renforcée avec ré-inspection sous 12 mois."

/-- `R041_BON_SURVEILLANCE`. -/
def r041BonSurveillance : Rule where
  code := "R041_BON_SURVEILLANCE"
  name := "Surveillance renforcée — bon état"
  condition := "\x7b\"pci_min\": 70, \"pci_max\": 85\x7d"
  action :=
    "\x7b\"strategy\": \"SURVEILLANCE\", \"estimated_days\": 1, \"deadline_days\": 365,\n   \"justification\": \"" ++
      r041Justification ++ "\"\x7d"
  priority := 45
  isActive := true

/-- The justification of `R050_EXCELLENT_SURVEILLANCE`. -/
def r050Justification : String :=
  "PCI de \x7bpci\x7d (\x7bdetections\x7d détection(s)) : chaussée en excellent état. Surveillance de routine, prochaine inspection sous 24 mois."

/-- `R050_EXCELLENT_SURVEILLANCE`. -/
def r050ExcellentSurveillance : Rule where
  code := "R050_EXCELLENT_SURVEILLANCE"
  name := "Surveillance de routine — excellent état"
  condition := "\x7b\"pci_min\": 85\x7d"
  action :=
    "\x7b\"strategy\": \"SURVEILLANCE\", \"estimated_days\": 1, \"deadline_days\": 730,\n   \"justification\": \"" ++
      r050Justification ++ "\"\x7d"
  priority := 50
  isActive := true

/-- `INSERT INTO rules`. -/
def seededRules : List Rule :=
  [r010CritiqueReconstruction,
   r020GraveStructurelRehabilitation,
   r021GraveDefautResurfacage,
   r030ModereSurfaceResurfacage,
   r031ModereFissuresColmatage,
   r032ModereDefautColmatage,
   r040BonFissuresColmatagePreventif,
   r041BonSurveillance,
   r050ExcellentSurveillance]

end RoadVisionAI.RuleEngine
