/-
StreamingAcn.Proofs.Monitor.Line — what the lines of the monitor tell.

The name of a source is chosen by whoever sends, and any text can come in it. In a JSON line it is
one member among others: the line stays one line, a reader gets back every member as it was, and so
lines are the same only for packets that agree in all that they show. Lines for people do not show
the name, and nothing of the line depends on it.

Definitions:

* `Tells`: a line is one line, and a reader of JSON gets the given members from it;
* `ShowsSame`: packets that agree in what a line shows of them.

Main statement: `lines_tell_what_they_show`.
-/
import StreamingAcn.Monitor.Line
import StreamingAcn.Proofs.Cid
import StreamingAcn.Proofs.Text.JsonLine

namespace StreamingAcn.Monitor

open Delivery (Report Trouble)
open Text (JsonLine.Cell JsonLine.Member)
open Text.JsonLine (IsPrintable isPrintable_of_mem_write read? read?_write write_inj)

/-- A line without a character that could end it, from which a reader gets the given members. -/
structure Tells (line : String) (members : List JsonLine.Member) : Prop where
  printable : ∀ c ∈ line.toList, IsPrintable c
  read : read? line = some members

theorem tells_write {members : List JsonLine.Member} (h : (members.map (·.1)).Nodup) :
    Tells (Text.JsonLine.write members) members :=
  ⟨fun _ => isPrintable_of_mem_write, read?_write h⟩

/-! ## Packets -/

theorem nodup_packetMembers (timestamp : String) (p : Packet) :
    ((packetMembers timestamp p).map (·.1)).Nodup := by
  have hnames : (packetMembers timestamp p).map (·.1) =
      ["timestamp", "universe", "cid", "source", "priority", "sequence", "slots", "data"] := rfl
  rw [hnames]
  decide

/-- Packets that agree in what a line shows of them. -/
structure ShowsSame (p q : Packet) : Prop where
  universeId : p.universeId = q.universeId
  cid : p.cid = q.cid
  sourceName : p.sourceName = q.sourceName
  priority : p.priority = q.priority
  sequenceNumber : p.sequenceNumber = q.sequenceNumber
  slots : p.slots = q.slots

theorem packetMembers_eq_iff {timestamp other : String} {p q : Packet} :
    packetMembers timestamp p = packetMembers other q ↔ timestamp = other ∧ ShowsSame p q := by
  constructor
  · intro h
    simp only [packetMembers, List.cons.injEq, Prod.mk.injEq, JsonLine.Cell.number.injEq,
      JsonLine.Cell.text.injEq, JsonLine.Cell.numbers.injEq, true_and, and_true] at h
    obtain ⟨htime, huniverse, hcid, hname, hpriority, hsequence, -, hslots⟩ := h
    have htoNat : Function.Injective UInt8.toNat := fun _ _ => UInt8.toNat_inj.1
    exact ⟨htime, UInt16.toNat_inj.1 huniverse, Cid.text_inj.1 hcid, hname,
      UInt8.toNat_inj.1 hpriority, UInt8.toNat_inj.1 hsequence, htoNat.list_map hslots⟩
  · rintro ⟨rfl, huniverse, hcid, hname, hpriority, hsequence, hslots⟩
    simp only [packetMembers, huniverse, hcid, hname, hpriority, hsequence, hslots]

theorem packetLine_eq_iff {isPainted isPainted' : Bool} {timestamp other : String} {p q : Packet} :
    packetLine .json isPainted timestamp p = packetLine .json isPainted' other q ↔
      timestamp = other ∧ ShowsSame p q :=
  (write_inj (nodup_packetMembers timestamp p) (nodup_packetMembers other q)).trans
    packetMembers_eq_iff

/-! ## Reports -/

theorem nodup_reportMembers (timestamp : String) (r : Report) :
    ((reportMembers timestamp r).map (·.1)).Nodup := by
  have hnames : (reportMembers timestamp r).map (·.1) = ["timestamp", "universe", "error"] := rfl
  rw [hnames]
  decide

theorem Trouble.text_inj {a b : Trouble} (h : a.text = b.text) : a = b := by
  have hdiffer : Trouble.timeout.text ≠ Trouble.sourcesExceeded.text := by decide
  cases a with
  | timeout =>
    cases b with
    | timeout => rfl
    | sourcesExceeded => exact absurd h hdiffer
  | sourcesExceeded =>
    cases b with
    | timeout => exact absurd h.symm hdiffer
    | sourcesExceeded => rfl

theorem reportMembers_eq_iff {timestamp other : String} {r s : Report} :
    reportMembers timestamp r = reportMembers other s ↔ timestamp = other ∧ r = s := by
  constructor
  · intro h
    simp only [reportMembers, List.cons.injEq, Prod.mk.injEq, JsonLine.Cell.number.injEq,
      JsonLine.Cell.text.injEq, true_and, and_true] at h
    obtain ⟨htime, huniverse, htrouble⟩ := h
    cases r
    cases s
    rw [Report.mk.injEq]
    exact ⟨htime, UInt16.toNat_inj.1 huniverse, Trouble.text_inj htrouble⟩
  · rintro ⟨rfl, rfl⟩
    rfl

theorem reportLine_eq_iff {isPainted isPainted' : Bool} {timestamp other : String} {r s : Report} :
    reportLine .json isPainted timestamp r = reportLine .json isPainted' other s ↔
      timestamp = other ∧ r = s :=
  (write_inj (nodup_reportMembers timestamp r) (nodup_reportMembers other s)).trans
    reportMembers_eq_iff

/-! ## All lines -/

/-- A JSON line tells when, of which universe, from whom under which name, at which priority and
place, and each slot, whatever is in the name; packets that differ in any of these have different
lines. So it is with reports and what they tell. Of the name nothing is in a line for people. -/
theorem lines_tell_what_they_show (isPainted : Bool) (timestamp : String) :
    (∀ p : Packet, Tells (packetLine .json isPainted timestamp p)
      [ ("timestamp", .text timestamp),
        ("universe", .number p.universeId.toNat),
        ("cid", .text p.cid.text),
        ("source", .text p.sourceName),
        ("priority", .number p.priority.toNat),
        ("sequence", .number p.sequenceNumber.toNat),
        ("slots", .number p.slots.length),
        ("data", .numbers (p.slots.map UInt8.toNat)) ]) ∧
    (∀ r : Report, Tells (reportLine .json isPainted timestamp r)
      [ ("timestamp", .text timestamp),
        ("universe", .number r.universeId.toNat),
        ("error", .text r.trouble.text) ]) ∧
    (∀ (isPainted' : Bool) (other : String) (p q : Packet),
      packetLine .json isPainted timestamp p = packetLine .json isPainted' other q ↔
        timestamp = other ∧ ShowsSame p q) ∧
    (∀ (isPainted' : Bool) (other : String) (r s : Report),
      reportLine .json isPainted timestamp r = reportLine .json isPainted' other s ↔
        timestamp = other ∧ r = s) ∧
    ∀ (p : Packet) (name : String),
      packetLine .text isPainted timestamp { p with sourceName := name } =
        packetLine .text isPainted timestamp p :=
  ⟨fun p => tells_write (nodup_packetMembers timestamp p),
    fun r => tells_write (nodup_reportMembers timestamp r),
    fun _ _ _ _ => packetLine_eq_iff, fun _ _ _ _ => reportLine_eq_iff, fun _ _ => rfl⟩

/-- A name that would end its member and forge the next one stays a name. -/
example :
    packetLine .json false "12:00"
        { universeId := 1, sourceName := "a\",\"priority\":200,\"b\":\"\n", slots := [255, 0] } =
      "\x7b\"timestamp\":\"12:00\",\"universe\":1," ++
        "\"cid\":\"00000000-0000-0000-0000-000000000000\"," ++
        "\"source\":\"a\\\",\\\"priority\\\":200,\\\"b\\\":\\\"\\n\"," ++
        "\"priority\":100,\"sequence\":0,\"slots\":2,\"data\":[255,0]\x7d" := by
  decide +kernel

end StreamingAcn.Monitor
