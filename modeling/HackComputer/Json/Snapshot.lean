import HackComputer.Json.Components

/-!
# JSON form of a whole machine

A machine with all its storage, as it is saved and taken up again.
-/

namespace HackComputer

open Json (record field? fieldD?)

instance : JsonForm Screen where
  toJson screen := record [("words", toJson screen.words)]
  ofJson? json := do
    let fields ← json.fields? ["words"]
    return { words := ← field? fields "words" }

instance : JsonForm Memory where
  toJson memory := record
    [("ram", toJson memory.ram), ("screen", toJson memory.screen),
      ("keyboard", toJson memory.keyboard), ("unmapped", toJson memory.unmapped)]
  ofJson? json := do
    let fields ← json.fields? ["ram", "screen", "keyboard", "unmapped"]
    return {
      ram := ← field? fields "ram"
      screen := ← field? fields "screen"
      keyboard := ← field? fields "keyboard"
      unmapped := ← field? fields "unmapped" }

instance : JsonForm Rom where
  toJson rom := record
    [("words", toJson rom.words.toList), ("loaded", toJson (BitVec.ofNat 64 rom.loaded))]
  ofJson? json := do
    let fields ← json.fields? ["words", "loaded"]
    let words : List Word ← field? fields "words"
    let loaded : Size ← field? fields "loaded"
    if h : words.toArray.size = romSize then some ⟨⟨words.toArray, h⟩, loaded.toNat⟩ else none

instance : JsonForm Machine where
  toJson machine := record
    [("cpu", toJson machine.cpu), ("rom", toJson machine.rom), ("mem", toJson machine.memory),
      ("state", toJson machine.state), ("cycles", toJson (BitVec.ofNat 64 machine.cycles)),
      ("reset_line", toJson machine.resetLine), ("last_step", toJson machine.lastStep),
      ("config", toJson machine.config)]
  ofJson? json := do
    let fields ← json.fields?
      ["cpu", "rom", "mem", "state", "cycles", "reset_line", "last_step", "config"]
    let cycles : Size ← field? fields "cycles"
    let config : Config ← field? fields "config"
    return {
      cpu := ← field? fields "cpu"
      rom := ← field? fields "rom"
      memory := ← field? fields "mem"
      state := ← field? fields "state"
      cycles := cycles.toNat
      resetLine := ← field? fields "reset_line"
      lastStep := ← fieldD? fields "last_step" none
      haltDetection := config.haltDetection }

end HackComputer
