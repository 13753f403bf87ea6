/-!
# Built-in names

The item classes and base types known without a catalog of one's own.

## Main definitions

* `builtinClasses`, `builtinBases`: the names of a filter's usual items
-/

namespace ItemFilter.Catalog

/-- The item classes known from the start. -/
def builtinClasses : List String :=
  ["Active Skill Gems", "Amulets", "Belts", "Body Armours", "Boots", "Bows", "Claws", "Currency",
   "Daggers", "Divination Card", "Fishing Rods", "Gloves", "Helmets", "Hybrid Flasks", "Jewel",
   "Labyrinth Item", "Labyrinth Map Item", "Labyrinth Trinket", "Life Flasks", "Mana Flasks",
   "Map Fragments", "Maps", "One Hand Axes", "One Hand Maces", "One Hand Swords", "Quest Items",
   "Quivers", "Rings", "Sceptres", "Shields", "Stackable Currency", "Staves",
   "Support Skill Gems", "Thrusting One Hand Swords", "Two Hand Axes", "Two Hand Maces",
   "Two Hand Swords", "Utility Flasks", "Wands"]

/-- The base types known from the start. -/
def builtinBases : List String :=
  ["Albino Rhoa Feather", "Amber Amulet", "Armourer's Scrap", "Blacksmith's Whetstone",
   "Blessed Orb", "Cartographer's Chisel", "Chaos Orb", "Chromatic Orb", "Coral Ring",
   "Diamond Ring", "Divine Life Flask", "Divine Mana Flask", "Divine Orb", "Eternal Life Flask",
   "Eternal Mana Flask", "Eternal Orb", "Exalted Orb", "Gemcutter's Prism",
   "Glassblower's Bauble", "Gold Amulet", "Gold Ring", "Heavy Belt", "Jeweller's Orb",
   "Leather Belt", "Mirror of Kalandra", "Onyx Amulet", "Orb of Alchemy", "Orb of Alteration",
   "Orb of Augmentation", "Orb of Chance", "Orb of Fusing", "Orb of Regret", "Orb of Scouring",
   "Orb of Transmutation", "Portal Scroll", "Quicksilver Flask", "Regal Orb", "Rustic Sash",
   "Sapphire Ring", "Scroll of Wisdom", "Two-Stone Ring", "Unset Ring", "Vaal Orb"]

end ItemFilter.Catalog
