import ZioControl.Block

/-!
# Summaries

A control block as six lines of text for a reader: versions and names, numbers, alarms, stamp, and a
line for each owner's attributes that lists the enabled slots.
-/

namespace ZioControl

/-- The enabled slots of a set, each with a mark for its kind in front. -/
def AttributeSet.summary {capacity : Nat} (s : AttributeSet capacity) (mark : String) : String :=
  String.join (s.entries.map fun (i, v) =>
    " " ++ mark ++ Text.decimal i ++ "=" ++ Text.decimal v.toNat)

/-- The masks of both kinds and the enabled slots. -/
def Attributes.summary (a : Attributes) (label : String) : String :=
  "Ctrl: " ++ label ++ " std " ++ Text.hex a.standard.mask.toNat ++ " ext " ++
    Text.hex a.extended.mask.toNat ++ a.standard.summary "s" ++ a.extended.summary "e" ++ "\n"

namespace Block

/-- The six lines. -/
def summary (b : Block) : String :=
  "Ctrl: version " ++ Text.decimal b.majorVersion.toNat ++ "." ++
    Text.decimal b.minorVersion.toNat ++ ", trigger " ++ b.triggerName ++ ", dev " ++
    b.address.device ++ ", cset " ++ Text.decimal b.address.channelSet.toNat ++ ", chan " ++
    Text.decimal b.address.channel.toNat ++ "\n" ++
  "Ctrl: seq " ++ Text.decimal b.sequence.toNat ++ ", n " ++ Text.decimal b.samples.toNat ++
    ", size " ++ Text.decimal b.sampleSize.toNat ++ ", bits " ++
    Text.decimal b.sampleBits.toNat ++ ", flags " ++ Text.hexPadded 8 b.flags.toNat ++ " (" ++
    b.endianness.text ++ ")\n" ++
  "Ctrl: alarms zio " ++ Text.hex b.zioAlarms.toNat ++ " dev " ++
    Text.hex b.deviceAlarms.toNat ++ "\n" ++
  "Ctrl: stamp " ++ Text.decimal b.stamp.seconds.toNat ++ "." ++
    Text.decimalPadded 9 b.stamp.ticks.toNat ++ " (" ++ Text.decimal b.stamp.bins.toNat ++ ")\n" ++
  b.channel.summary "dev" ++ b.trigger.summary "trg"

end Block

end ZioControl
