import UltraMds.Configrelated.ConfigRead
import UltraMds.Tool.JsonDocument

/-!
# The configuration file

The constructor of `ConfigReader`, on the bytes of the file.  `construct_iff` says what it reads,
and that it throws for every other file.
-/

namespace UltraMds

open JsonText

namespace ConfigReader

/-- `ConfigReader::readFile`, `none` for a file that cannot be opened. -/
def readFile (filePath : String) : Option (List UInt8) → Except String (List UInt8)
  | none => .error ("配置文件打开失败：" ++ filePath)
  | some content => .ok content

variable (strtod : List UInt8 → Double)

/-- `json::parse(jsonContent)`: neither comments nor trailing commas. -/
def jsonParse (content : List UInt8) : Option (Except Stop Json) :=
  Parser.parseBytes strtod false content

/-- The constructor, with the text of the `std::runtime_error` that it throws.  There is no result
if the parser does not end or fails an assertion. -/
def construct (configFilePath : String) (file : Option (List UInt8)) :
    Option (Except String ConfigReader) :=
  match readFile configFilePath file with
  | .error what => some (.error ("配置文件读取失败：" ++ what))
  | .ok jsonContent =>
    match jsonParse strtod jsonContent with
    | some (.ok mJson) => some (.ok ⟨mJson⟩)
    | some (.error (.thrown (.parseError _ _ what))) => some (.error ("JSON解析失败：" ++ what))
    | some (.error (.thrown (.outOfRange _ what))) =>
      some (.error ("配置文件读取失败：" ++ what))
    | some (.error .assertion) => none
    | none => none

/-- What the constructor reads: it returns the value of the file, for the documents and only for
them, or it throws; there is no other end. -/
theorem construct_iff (configFilePath : String) (file : Option (List UInt8)) :
    (∀ reader, construct strtod configFilePath file = some (.ok reader) ↔
      ∃ content, file = some content ∧ Document strtod false content reader.mJson) ∧
    ((∃ reader, construct strtod configFilePath file = some (.ok reader)) ∨
      ∃ what, construct strtod configFilePath file = some (.error what)) := by
  cases file with
  | none => exact ⟨fun reader => ⟨nofun, fun ⟨_, hfile, _⟩ => nomatch hfile⟩, .inr ⟨_, rfl⟩⟩
  | some content =>
    simp only [Option.some.injEq, exists_eq_left', ← Parser.parseBytes_ok_iff]
    unfold construct readFile jsonParse
    simp only
    rcases Parser.parseBytes_ends strtod false content with ⟨v, hv⟩ | ⟨e, he⟩
    · rw [hv]
      refine ⟨fun reader => ?_, .inl ⟨⟨v⟩, rfl⟩⟩
      obtain ⟨mJson⟩ := reader
      simp
    · rw [he]
      cases e with
      | parseError id byte what => exact ⟨fun reader => ⟨nofun, nofun⟩, .inr ⟨_, rfl⟩⟩
      | outOfRange id what => exact ⟨fun reader => ⟨nofun, nofun⟩, .inr ⟨_, rfl⟩⟩

end ConfigReader

end UltraMds
