import Excision.Preset

/-!
# Built-in presets

Two presets for the two passes in which the user interface methods of a combat scene are taken
out of the scene.
-/

set_option autoImplicit false

namespace Excision

/-- The methods that go in the first pass. -/
def combatUiFirstPass : List String :=
  ["createCombatUI", "createPlayerUI", "createEnemyUI", "createHandUI", "createPlayedHandUI",
   "createActionButtons", "updateActionButtons", "createTurnUI", "createPokerHandInfoButton",
   "addSampleCard", "createRelicsUI", "updateRelicsUI", "createRelicInventory",
   "createRelicInventoryToggle", "updateRelicInventory", "showRelicTooltip", "hideRelicTooltip",
   "showRelicDetailModal", "createButton", "updateHandDisplay", "createCardSprite",
   "updatePlayerUI", "updateEnemyUI", "updateTurnUI", "createActionResultUI", "createDeckSprite",
   "createDiscardSprite", "createDeckView", "createDiscardView", "createDamagePreview",
   "updateDamagePreview", "createDDADebugOverlay", "toggleDDADebug", "updateDDADebugOverlay",
   "getTierColor", "createEnemyInfoButton"]

/-- The methods that go in the second pass. -/
def combatUiSecondPass : List String :=
  ["createCombatUI", "createPlayerUI", "createEnemyUI", "createHandUI", "createActionButtons",
   "updateActionButtons", "createHandIndicator", "updateHandDisplay", "updateHandIndicator",
   "createCardSprite", "updatePlayerUI", "updateEnemyUI", "createPlayerShadow",
   "createEnemyShadow", "updatePlayerStatusEffects", "updateEnemyStatusEffects",
   "createStatusEffects", "updatePlayedHandDisplay", "createPokerHandInfoButton",
   "showPokerHandReference", "hidePokerHandReference"]

/-- The presets that are there without a project file. -/
def builtinPresets : List Preset :=
  [{ name := "combat-ui-phase1"
     description :=
       "Combat scene UI methods, first pass (private only, short lookback, trims blank)"
     methods := combatUiFirstPass
     settings :=
       { lookback := some .bounded, modifiers := some ["private"], trimsBlank := some true }
     source := .builtin },
   { name := "combat-ui-phase2"
     description :=
       "Combat scene UI methods, second pass (private or public, doc-block lookback)"
     methods := combatUiSecondPass
     settings :=
       { lookback := some .docBlock, modifiers := some ["private", "public"],
         trimsBlank := some false }
     source := .builtin }]

end Excision
