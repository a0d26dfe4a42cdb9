import ZioControl.Block.Summary
import ZioControl.Proofs.Parting
import ZioControl.Proofs.SlotMaps

/-!
# What a summary tells

A summary tells all numbers and attributes that it shows, and of the two names the text that they
make together: two blocks have the same summary exactly if they are alike in these
(`Block.summary_eq_iff`). The names may hold anything, also what looks like the rest of a summary,
so the text is taken apart from both ends. From the end come the five lines behind the heading, for
they have five line feeds whatever the names hold (`Block.feeds_details`), and the two numbers at
the end of the heading. All else is read from the front, a line at a time. A list of enabled slots
ends where the next two characters begin no other slot (`AttributeSet.join_append_inj`).
-/

namespace ZioControl

/-! ## The lists of enabled slots -/

namespace AttributeSet

variable {capacity : Nat} {s t : AttributeSet capacity} {mark rest other : String}

/-- An enabled slot as it is listed. -/
def entryText (mark : String) (entry : Nat × UInt32) : String :=
  " " ++ mark ++ Text.decimal entry.1 ++ "=" ++ Text.decimal entry.2.toNat

/-- A text that may follow a list of slots: it begins neither with a digit nor with another slot. -/
structure Follows (mark rest : String) : Prop where
  /-- The last value ends there. -/
  stops : Text.Stops rest
  /-- The list ends there. -/
  ends : ∀ behind, rest ≠ " " ++ mark ++ behind

/-- A list of slots is the texts of its entries. -/
theorem summary_eq_join (s : AttributeSet capacity) (mark : String) :
    s.summary mark = String.join (s.entries.map (entryText mark)) := rfl

/-- The first slot of a list, with what follows each of its parts. -/
theorem join_cons_append (entry : Nat × UInt32) (entries : List (Nat × UInt32)) (rest : String) :
    String.join ((entry :: entries).map (entryText mark)) ++ rest = " " ++ mark ++
      (Text.decimal entry.1 ++ ("=" ++ (Text.decimal entry.2.toNat ++
        (String.join (entries.map (entryText mark)) ++ rest)))) := by
  rw [List.map_cons, String.join_cons, entryText]
  simp only [String.append_assoc]

/-- No slots leave what follows them. -/
theorem join_nil_append (rest : String) :
    String.join (([] : List (Nat × UInt32)).map (entryText mark)) ++ rest = rest := by
  rw [List.map_nil, String.join_nil, String.empty_append]

/-- A list of slots in front of what may follow it does not begin with a digit. -/
theorem stops_join (h : Text.Stops rest) (entries : List (Nat × UInt32)) :
    Text.Stops (String.join (entries.map (entryText mark)) ++ rest) := by
  cases entries with
  | nil => rwa [join_nil_append]
  | cons entry entries =>
    have hblank : Text.Parts " " := by decide
    rw [join_cons_append, String.append_assoc]
    exact hblank.stops_append

/-- A list of slots and what follows it are told by the whole, by induction on the list: the next
two characters say whether there is another slot. -/
theorem join_append_inj {entries others : List (Nat × UInt32)} (hrest : Follows mark rest)
    (hother : Follows mark other)
    (h : String.join (entries.map (entryText mark)) ++ rest =
      String.join (others.map (entryText mark)) ++ other) : entries = others ∧ rest = other := by
  induction entries generalizing others with
  | nil =>
    cases others with
    | nil => exact ⟨rfl, by rwa [join_nil_append, join_nil_append] at h⟩
    | cons second others =>
      rw [join_nil_append, join_cons_append] at h
      exact absurd h (hrest.ends _)
  | cons first entries ih =>
    cases others with
    | nil =>
      rw [join_nil_append, join_cons_append] at h
      exact absurd h.symm (hother.ends _)
    | cons second others =>
      rw [join_cons_append, join_cons_append, String.append_right_inj] at h
      obtain ⟨hslot, h⟩ := Text.decimal_sep_inj (by decide) h
      obtain ⟨hvalue, h⟩ := Text.numeral_append_inj (by decide) (Text.natural?_decimal _)
        (Text.natural?_decimal _) (stops_join hrest.stops _) (stops_join hother.stops _) h
      obtain ⟨rfl, rfl⟩ := ih h
      obtain rfl : first = second := Prod.ext hslot (UInt32.toNat_inj.mp hvalue)
      exact ⟨rfl, rfl⟩

/-- Sets that list the same entries are equal. -/
theorem entries_injective (h : s.entries = t.entries) : s = t := by
  apply ext_get?
  intro i
  ext v
  rw [← mem_entries_iff, ← mem_entries_iff, h]

/-- A set and what follows its list of slots are told by the whole. -/
theorem summary_append_inj (hrest : Follows mark rest) (hother : Follows mark other)
    (h : s.summary mark ++ rest = t.summary mark ++ other) : s = t ∧ rest = other := by
  rw [summary_eq_join, summary_eq_join] at h
  obtain ⟨hentries, hrest⟩ := join_append_inj hrest hother h
  exact ⟨entries_injective hentries, hrest⟩

/-- The end of a line may follow any list of slots. -/
theorem follows_feed (mark rest : String) : Follows mark ("\n" ++ rest) where
  stops := Text.Parts.stops_append (by decide)
  ends := by
    intro behind h
    have hfirst := congrArg (fun text => text.toList.head?) h
    simp at hfirst

/-- A list of extended slots may follow one of standard slots. -/
theorem follows_extended (t : AttributeSet capacity) (rest : String) :
    Follows "s" (t.summary "e" ++ ("\n" ++ rest)) where
  stops := stops_join (follows_feed "e" rest).stops _
  ends := by
    rw [summary_eq_join]
    cases t.entries with
    | nil =>
      rw [join_nil_append]
      exact (follows_feed "s" rest).ends
    | cons entry entries =>
      intro behind h
      rw [join_cons_append] at h
      have hsecond := congrArg (fun text => text.toList[1]?) h
      simp at hsecond

/-- A list of slots has no line feed, if its mark has none. -/
theorem feeds_summary (hmark : Text.feeds mark = 0) (s : AttributeSet capacity) :
    Text.feeds (s.summary mark) = 0 := by
  rw [summary_eq_join]
  induction s.entries with
  | nil => rfl
  | cons entry entries ih =>
    have hparts : Text.feeds " " = 0 ∧ Text.feeds "=" = 0 := by decide
    simp [String.join_cons, entryText, hmark, hparts, ih]

end AttributeSet

/-- The attributes of an owner and what follows their line are told by the whole. -/
theorem Attributes.summary_append_inj {a b : Attributes} {label rest other : String}
    (h : a.summary label ++ rest = b.summary label ++ other) : a = b ∧ rest = other := by
  unfold Attributes.summary at h
  simp only [String.append_assoc] at h
  rw [String.append_right_inj, String.append_right_inj, String.append_right_inj] at h
  obtain ⟨-, h⟩ := Text.hex_sep_inj (by decide) h
  obtain ⟨-, h⟩ := Text.hex_append_inj
    (AttributeSet.stops_join (AttributeSet.follows_extended a.extended rest).stops _)
    (AttributeSet.stops_join (AttributeSet.follows_extended b.extended other).stops _) h
  obtain ⟨hstandard, h⟩ := AttributeSet.summary_append_inj
    (AttributeSet.follows_extended _ _) (AttributeSet.follows_extended _ _) h
  obtain ⟨hextended, h⟩ := AttributeSet.summary_append_inj (AttributeSet.follows_feed _ _)
    (AttributeSet.follows_feed _ _) h
  exact ⟨Attributes.ext hstandard hextended, (String.append_right_inj "\n").mp h⟩

/-- The attributes of an owner are a line. -/
theorem Attributes.feeds_summary {label : String} (hlabel : Text.feeds label = 0)
    (a : Attributes) : Text.feeds (a.summary label) = 1 := by
  unfold Attributes.summary
  have hstandard : Text.feeds (a.standard.summary "s") = 0 :=
    AttributeSet.feeds_summary (by decide) a.standard
  have hextended : Text.feeds (a.extended.summary "e") = 0 :=
    AttributeSet.feeds_summary (by decide) a.extended
  simp only [Text.feeds_append, Text.feeds_hex, hlabel, hstandard, hextended]
  decide

namespace Block

/-- Blocks are alike in all that a summary tells. -/
structure Alike (b other : Block) : Prop where
  /-- The major versions are the same. -/
  majorVersion : b.majorVersion = other.majorVersion
  /-- The minor versions are the same. -/
  minorVersion : b.minorVersion = other.minorVersion
  /-- The names make the same text together. -/
  names : b.triggerName ++ ", dev " ++ b.address.device =
    other.triggerName ++ ", dev " ++ other.address.device
  /-- The numbers of the channel sets are the same. -/
  channelSet : b.address.channelSet = other.address.channelSet
  /-- The numbers of the channels are the same. -/
  channel : b.address.channel = other.address.channel
  /-- The sequence numbers are the same. -/
  sequence : b.sequence = other.sequence
  /-- The numbers of samples are the same. -/
  samples : b.samples = other.samples
  /-- The sizes of a sample are the same. -/
  sampleSize : b.sampleSize = other.sampleSize
  /-- The bits of a sample are the same. -/
  sampleBits : b.sampleBits = other.sampleBits
  /-- The flags are the same. -/
  flags : b.flags = other.flags
  /-- The alarms of the framework are the same. -/
  zioAlarms : b.zioAlarms = other.zioAlarms
  /-- The alarms of the device are the same. -/
  deviceAlarms : b.deviceAlarms = other.deviceAlarms
  /-- The seconds are the same. -/
  seconds : b.stamp.seconds = other.stamp.seconds
  /-- The ticks are the same. -/
  ticks : b.stamp.ticks = other.stamp.ticks
  /-- The fractions of a tick are the same. -/
  bins : b.stamp.bins = other.stamp.bins
  /-- The attributes of the channels are the same, masks and values. -/
  channelAttributes : b.channel = other.channel
  /-- The attributes of the triggers are the same, masks and values. -/
  triggerAttributes : b.trigger = other.trigger

/-- The heading of a summary, whose names may hold line feeds. -/
def heading (b : Block) : String :=
  "Ctrl: version " ++ Text.decimal b.majorVersion.toNat ++ "." ++
    Text.decimal b.minorVersion.toNat ++ ", trigger " ++
    (b.triggerName ++ ", dev " ++ b.address.device) ++ ", cset " ++
    Text.decimal b.address.channelSet.toNat ++ ", chan " ++ Text.decimal b.address.channel.toNat

/-- The line behind the heading. -/
def samplesLine (b : Block) : String :=
  "Ctrl: seq " ++ Text.decimal b.sequence.toNat ++ ", n " ++ Text.decimal b.samples.toNat ++
    ", size " ++ Text.decimal b.sampleSize.toNat ++ ", bits " ++
    Text.decimal b.sampleBits.toNat ++ ", flags " ++ Text.hexPadded 8 b.flags.toNat ++ " (" ++
    b.endianness.text ++ ")\n"

/-- The line of the alarms. -/
def alarmsLine (b : Block) : String :=
  "Ctrl: alarms zio " ++ Text.hex b.zioAlarms.toNat ++ " dev " ++
    Text.hex b.deviceAlarms.toNat ++ "\n"

/-- The line of the stamp. -/
def stampLine (b : Block) : String :=
  "Ctrl: stamp " ++ Text.decimal b.stamp.seconds.toNat ++ "." ++
    Text.decimalPadded 9 b.stamp.ticks.toNat ++ " (" ++ Text.decimal b.stamp.bins.toNat ++ ")\n"

/-- The lines of a summary behind the heading. -/
def details (b : Block) : String :=
  b.samplesLine ++ (b.alarmsLine ++ (b.stampLine ++
    (b.channel.summary "dev" ++ b.trigger.summary "trg")))

variable {b other : Block} {rest others : String}

/-- A summary is its heading and the lines behind it. -/
theorem summary_eq (b : Block) : b.summary = b.heading ++ ("\n" ++ b.details) := by
  unfold summary heading details samplesLine alarmsLine stampLine
  simp only [String.append_assoc]

/-- The byte order is told by the flags. -/
theorem endianness_congr (h : b.flags = other.flags) : b.endianness = other.endianness := by
  unfold endianness
  rw [h]

/-- Five lines stand behind the heading. -/
theorem feeds_details (b : Block) : Text.feeds b.details = 5 := by
  have horder : Text.feeds b.endianness.text = 0 := by
    cases b.endianness <;> decide
  have hchannel : Text.feeds (b.channel.summary "dev") = 1 :=
    Attributes.feeds_summary (by decide) b.channel
  have htrigger : Text.feeds (b.trigger.summary "trg") = 1 :=
    Attributes.feeds_summary (by decide) b.trigger
  unfold details samplesLine alarmsLine stampLine
  -- what is left are the texts between the numbers
  simp only [Text.feeds_append, Text.feeds_decimal, Text.feeds_decimalPadded, Text.feeds_hexPadded,
    Text.feeds_hex, horder, hchannel, htrigger]
  decide

/-- A heading tells its numbers and the names, the first two numbers from the front and the others
from the end. -/
theorem heading_inj (h : b.heading = other.heading) :
    b.majorVersion = other.majorVersion ∧ b.minorVersion = other.minorVersion ∧
      b.triggerName ++ ", dev " ++ b.address.device =
        other.triggerName ++ ", dev " ++ other.address.device ∧
      b.address.channelSet = other.address.channelSet ∧
      b.address.channel = other.address.channel := by
  unfold heading at h
  obtain ⟨h, hchannel⟩ := Text.append_decimal_inj (by decide) h
  obtain ⟨h, hset⟩ := Text.append_decimal_inj (by decide) h
  -- the names stay together, for no name is told alone
  generalize b.triggerName ++ ", dev " ++ b.address.device = names at h ⊢
  generalize other.triggerName ++ ", dev " ++ other.address.device = otherNames at h ⊢
  simp only [String.append_assoc] at h
  rw [String.append_right_inj] at h
  obtain ⟨hmajor, h⟩ := Text.decimal_sep_inj (by decide) h
  obtain ⟨hminor, hnames⟩ := Text.decimal_sep_inj (by decide) h
  exact ⟨UInt8.toNat_inj.mp hmajor, UInt8.toNat_inj.mp hminor, hnames, UInt16.toNat_inj.mp hset,
    UInt16.toNat_inj.mp hchannel⟩

/-- The numbers of the line behind the heading, and what follows it, are told by the whole. -/
theorem samplesLine_append_inj (h : b.samplesLine ++ rest = other.samplesLine ++ others) :
    (b.sequence = other.sequence ∧ b.samples = other.samples ∧ b.sampleSize = other.sampleSize ∧
      b.sampleBits = other.sampleBits ∧ b.flags = other.flags) ∧ rest = others := by
  unfold samplesLine at h
  simp only [String.append_assoc] at h
  rw [String.append_right_inj] at h
  obtain ⟨hsequence, h⟩ := Text.decimal_sep_inj (by decide) h
  obtain ⟨hsamples, h⟩ := Text.decimal_sep_inj (by decide) h
  obtain ⟨hsize, h⟩ := Text.decimal_sep_inj (by decide) h
  obtain ⟨hbits, h⟩ := Text.decimal_sep_inj (by decide) h
  obtain ⟨hflags, h⟩ := Text.numeral_sep_inj (by decide) (Text.natural?_hexPadded 8 _)
    (Text.natural?_hexPadded 8 _) (by decide) h
  have hflags : b.flags = other.flags := UInt32.toNat_inj.mp hflags
  -- the byte order is no numeral, but it follows from the flags
  rw [endianness_congr hflags, String.append_right_inj, String.append_right_inj] at h
  exact ⟨⟨UInt32.toNat_inj.mp hsequence, UInt32.toNat_inj.mp hsamples, UInt16.toNat_inj.mp hsize,
    UInt16.toNat_inj.mp hbits, hflags⟩, h⟩

/-- The alarms and what follows their line are told by the whole. -/
theorem alarmsLine_append_inj (h : b.alarmsLine ++ rest = other.alarmsLine ++ others) :
    (b.zioAlarms = other.zioAlarms ∧ b.deviceAlarms = other.deviceAlarms) ∧ rest = others := by
  unfold alarmsLine at h
  simp only [String.append_assoc] at h
  rw [String.append_right_inj] at h
  obtain ⟨hzio, h⟩ := Text.hex_sep_inj (by decide) h
  obtain ⟨hdevice, h⟩ := Text.hex_sep_inj (by decide) h
  exact ⟨⟨UInt8.toNat_inj.mp hzio, UInt8.toNat_inj.mp hdevice⟩, h⟩

/-- The parts of the stamp and what follows their line are told by the whole. -/
theorem stampLine_append_inj (h : b.stampLine ++ rest = other.stampLine ++ others) :
    (b.stamp.seconds = other.stamp.seconds ∧ b.stamp.ticks = other.stamp.ticks ∧
      b.stamp.bins = other.stamp.bins) ∧ rest = others := by
  unfold stampLine at h
  simp only [String.append_assoc] at h
  rw [String.append_right_inj] at h
  obtain ⟨hseconds, h⟩ := Text.decimal_sep_inj (by decide) h
  obtain ⟨hticks, h⟩ := Text.numeral_sep_inj (by decide) (Text.natural?_decimalPadded 9 _)
    (Text.natural?_decimalPadded 9 _) (by decide) h
  obtain ⟨hbins, h⟩ := Text.decimal_sep_inj (by decide) h
  exact ⟨⟨UInt64.toNat_inj.mp hseconds, UInt64.toNat_inj.mp hticks, UInt64.toNat_inj.mp hbins⟩, h⟩

/-- The attributes at the end of a summary are told by their lines. -/
theorem attributes_inj (h : b.channel.summary "dev" ++ b.trigger.summary "trg" =
    other.channel.summary "dev" ++ other.trigger.summary "trg") :
    b.channel = other.channel ∧ b.trigger = other.trigger := by
  obtain ⟨hchannel, h⟩ := Attributes.summary_append_inj h
  -- nothing stands behind the last line
  rw [← String.append_empty (s := b.trigger.summary "trg"),
    ← String.append_empty (s := other.trigger.summary "trg")] at h
  exact ⟨hchannel, (Attributes.summary_append_inj h).1⟩

/-- Blocks with the same summary are alike. -/
theorem Alike.of_summary (h : b.summary = other.summary) : b.Alike other := by
  rw [summary_eq, summary_eq] at h
  have hfeeds : Text.feeds b.details = Text.feeds other.details := by
    rw [feeds_details, feeds_details]
  obtain ⟨hheading, hdetails⟩ := Text.append_feed_inj hfeeds h
  obtain ⟨hmajor, hminor, hnames, hset, hchannel⟩ := heading_inj hheading
  obtain ⟨⟨hsequence, hsamples, hsize, hbits, hflags⟩, hlines⟩ := samplesLine_append_inj hdetails
  obtain ⟨⟨hzio, hdevice⟩, hlines⟩ := alarmsLine_append_inj hlines
  obtain ⟨⟨hseconds, hticks, hbins⟩, hlines⟩ := stampLine_append_inj hlines
  obtain ⟨hchannels, htriggers⟩ := attributes_inj hlines
  exact ⟨hmajor, hminor, hnames, hset, hchannel, hsequence, hsamples, hsize, hbits, hflags, hzio,
    hdevice, hseconds, hticks, hbins, hchannels, htriggers⟩

/-- Blocks that are alike have the same summary. -/
theorem Alike.summary_eq (h : b.Alike other) : b.summary = other.summary := by
  rw [Block.summary_eq, Block.summary_eq]
  unfold heading details samplesLine alarmsLine stampLine
  rw [h.majorVersion, h.minorVersion, h.names, h.channelSet, h.channel, h.sequence, h.samples,
    h.sampleSize, h.sampleBits, h.flags, endianness_congr h.flags, h.zioAlarms, h.deviceAlarms,
    h.seconds, h.ticks, h.bins, h.channelAttributes, h.triggerAttributes]

/-- Two blocks have the same summary exactly if all numbers and attributes that it shows are the
same, masks and values, and so is the text that the two names make together. The names may hold
anything. -/
theorem summary_eq_iff (b other : Block) : b.summary = other.summary ↔ b.Alike other :=
  ⟨Alike.of_summary, Alike.summary_eq⟩

/-- Where one name ends and the other one begins is not told, if they hold what stands between. -/
example :
    ({ triggerName := "a, dev b", address := { device := "c" } } : Block).summary =
      ({ triggerName := "a", address := { device := "b, dev c" } } : Block).summary := by
  decide +kernel

end Block

end ZioControl
