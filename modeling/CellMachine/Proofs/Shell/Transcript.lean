import CellMachine.Proofs.Script.Wording
import CellMachine.Proofs.Session.Source
import CellMachine.Proofs.Shell.Agreement

/-! # The transcript of a script

What a script tells is written to standard output, one record to a line, and a line that starts with
the mark of an echo is an echo. So the records can be read off the output, and the output that is
asked for without echoes is the one with echoes less the lines that are marked.

* `framed_readLine`, `framed_readSource`: all that lines and source texts emit is framed.
* `writtenLines_records`, `filter_marked`: the lines of the output are the records, and the marked
  lines are the echoes.
* `transcript_is_framed`: both invocations on one script. -/

namespace CellMachine

open Reply

/-! ## What a script emits -/

namespace Session

theorem framed_readLine (limit : Nat) (s : Session) (line : Text) :
    (s.readLine limit line).Framed := by
  rcases readLine_cases limit s line with ⟨-, hend⟩ | ⟨-, r, -, hcall⟩ | ⟨s', hsilent, -⟩
  · rw [hend]
    exact ensures_ok trivial (by simpa using Record.framed_ended)
  · rw [hcall]
    exact (framed_replay limit s.vars s.bench r.body).andThen fun _ _ => ensures_silent trivial
  · rw [hsilent]
    exact ensures_silent trivial

theorem framed_echoLine (limit : Nat) (s : Session) {line : Text} (h : '\n' ∉ line) :
    (s.echoLine limit line).Framed := by
  have hecho : Reply.Framed (.ok (s, [.echo line])) :=
    ensures_ok trivial (by simpa using Record.framed_echo h)
  exact hecho.andThen fun s' _ => framed_readLine limit s' line

theorem framed_readSource (limit : Nat) (s : Session) (source : Text) :
    (s.readSource limit source).Framed := by
  refine ensures_feed_of_mem (fun s line hline _ => ?_) trivial
  obtain ⟨piece, hpiece, rfl⟩ := List.mem_map.mp hline
  have hline : '\n' ∉ Text.without ['\r'] piece :=
    fun hmem => Text.notMem_of_mem_splitOn hpiece (Text.mem_of_mem_without hmem)
  exact framed_echoLine limit s hline

end Session

/-! ## How it is written -/

section Written

variable {out : List Record} (h : ∀ record ∈ out, record.Framed)

theorem Record.lines_eq_ofLines (out : List Record) : lines out = Text.ofLines (out.map text) := by
  rw [lines, Text.ofLines, List.flatMap_map]

include h

theorem writtenLines_records :
    Text.writtenLines (Text.ofLines (out.map Record.text)) = out.map Record.text := by
  refine Text.writtenLines_ofLines fun line hline => ?_
  obtain ⟨record, hrecord, rfl⟩ := List.mem_map.mp hline
  exact (h record hrecord).oneLine

/-- **The marked lines are the echoes,** and the others all else. -/
theorem filter_marked (keep : Bool → Bool) :
    (out.map Record.text).filter (fun line => keep (Text.isMarked line)) =
      (out.filter fun record => keep record.isEcho).map Record.text := by
  rw [List.filter_map]
  refine congrArg (List.map Record.text) (List.filter_congr fun record hrecord => ?_)
  exact congrArg keep (h record hrecord).isMarked_text

end Written

/-! ## Invocations -/

section Invocations

open Session

variable {limit : Nat} {s : Session} {out : List Record} {around : Surroundings}
  {args args' : List Text} {path source : Text}

/-- **The output of a script is framed, and quiet is a filter of it.** A script that is run without
abort, once with its echoes and once without: each record is written on a line of its own, and the
lines that start with the mark are the echoes, one for each piece of the script between newlines.
The output without the echoes is the other less the lines that are marked. -/
theorem transcript_is_framed (hloud : Command.ofArgs args = .ok (.run false path))
    (hquiet : Command.ofArgs args' = .ok (.run true path))
    (hfile : around.file path = .ok (Text.toBytes source))
    (hread : fresh.readSource limit source = .ok (s, out)) :
    ∃ stdout, invoke limit around args = .ok ⟨0, stdout, []⟩ ∧
      stdout = Text.ofLines (out.map Record.text) ∧
      Text.writtenLines stdout = out.map Record.text ∧
      (∀ record ∈ out, '\n' ∉ record.text ∧ Text.isMarked record.text = record.isEcho) ∧
      out.filter Record.isEcho =
        (source.splitOn '\n').map (fun piece => .echo (Text.without ['\r'] piece)) ∧
      (Text.writtenLines stdout).filter Text.isMarked =
        (source.splitOn '\n').map (fun piece => "> ".toList ++ Text.without ['\r'] piece) ∧
      invoke limit around args' =
        .ok ⟨0, Text.ofLines ((Text.writtenLines stdout).filter fun line => !Text.isMarked line),
          []⟩ := by
  have hframed : ∀ record ∈ out, record.Framed := (framed_readSource limit fresh source s out hread).2
  have hlines := writtenLines_records hframed
  have hechoes : out.filter Record.isEcho =
      (source.splitOn '\n').map (fun piece => .echo (Text.without ['\r'] piece)) := by
    rw [echoes_of_feed hread, sourceLines, List.map_map]
    rfl
  refine ⟨Text.ofLines (out.map Record.text), ?_, rfl, hlines, ?_, hechoes, ?_, ?_⟩
  · rw [invoke_run hloud, hfile, script_toBytes, hread, ← Record.lines_eq_ofLines]
    rfl
  · exact fun record hrecord => ⟨(hframed record hrecord).oneLine,
      (hframed record hrecord).isMarked_text⟩
  · have hmarked := filter_marked hframed id
    rw [hlines]
    exact hmarked.trans (by simp only [id_eq, hechoes, List.map_map]; rfl)
  · rw [invoke_run hquiet, hfile, script_toBytes, hread, hlines, filter_marked hframed (!·),
      ← Record.lines_eq_ofLines]
    rfl

/-- A script with a line that looks like an echo itself, a mnemonic that is unknown, and a carriage
return at the end of a line. -/
def markedScript : Text :=
  "> 5\ndef f\r\n".toList ++ "c = Computer.new(2)\n".toList ++
    "c.insert(\"JUMP\").insert(\"PUSH\", -7)".toList ++
    ".insert(\"PRINT\").set_address(0).execute()\n".toList ++ "end\nf\nexit()".toList

/-- All that is written for it but for the echoes. -/
def markedRest : List Text :=
  ["invalid instruction 'JUMP'".toList, "-7".toList, "Session ended.".toList]

theorem transcript_is_framed_marked : ∃ stdout,
    invoke 3 (.holding markedScript) ["run".toList, "a.txt".toList] = .ok ⟨0, stdout, []⟩ ∧
      (Text.writtenLines stdout).filter Text.isMarked =
        ["> > 5".toList, "> def f".toList, "> c = Computer.new(2)".toList,
          "> c.insert(\"JUMP\").insert(\"PUSH\", -7)".toList ++
            ".insert(\"PRINT\").set_address(0).execute()".toList,
          "> end".toList, "> f".toList, "> exit()".toList] ∧
      (Text.writtenLines stdout).filter (fun line => !Text.isMarked line) = markedRest ∧
      invoke 3 (.holding markedScript) ["run".toList, "-q".toList, "a.txt".toList] =
        .ok ⟨0, Text.ofLines markedRest, []⟩ := by
  have hrest : (fresh.readSource 3 markedScript).map (fun reply =>
      (reply.2.map Record.text).filter fun line => !Text.isMarked line) = .ok markedRest := by
    decide +kernel
  rcases hread : fresh.readSource 3 markedScript with abort | ⟨s, out⟩
  · rw [hread] at hrest
    cases hrest
  · rw [hread] at hrest
    have hloud : Command.ofArgs ["run".toList, "a.txt".toList] =
        .ok (.run false "a.txt".toList) := rfl
    have hquiet : Command.ofArgs ["run".toList, "-q".toList, "a.txt".toList] =
        .ok (.run true "a.txt".toList) := rfl
    have hfile : (Surroundings.holding markedScript).file "a.txt".toList =
        .ok (Text.toBytes markedScript) := rfl
    obtain ⟨stdout, hinvoke, -, hlines, -, -, hmarked, hfiltered⟩ :=
      transcript_is_framed hloud hquiet hfile hread
    have hunmarked : (Text.writtenLines stdout).filter (fun line => !Text.isMarked line) =
        markedRest := by
      rw [hlines]
      exact Except.ok.inj hrest
    rw [hunmarked] at hfiltered
    exact ⟨stdout, hinvoke, hmarked.trans (by decide +kernel), hunmarked, hfiltered⟩

end Invocations

end CellMachine
