/-!
What goes wrong with files, and how it is said.
-/

namespace StaticSite

inductive IoError
  | notFound
  | notADirectory
  | isADirectory
  | alreadyExists
  | invalidArgument
  | linkLoop
  /-- A directory was to be copied as a file. -/
  | sourceNotAFile
  /-- A text file is not UTF-8. -/
  | notUtf8
  | emptyPath
  /-- A failure of a source or a sink that is no file, in its own words. -/
  | other (message : String)
deriving DecidableEq, Repr

def IoError.message : IoError → String
  | .notFound => "No such file or directory (os error 2)"
  | .notADirectory => "Not a directory (os error 20)"
  | .isADirectory => "Is a directory (os error 21)"
  | .alreadyExists => "File exists (os error 17)"
  | .invalidArgument => "Invalid argument (os error 22)"
  | .linkLoop => "Too many levels of symbolic links (os error 40)"
  | .sourceNotAFile => "the source path is neither a regular file nor a symlink to a regular file"
  | .notUtf8 => "stream did not contain valid UTF-8"
  | .emptyPath => "cannot make an empty path absolute"
  | .other message => message

end StaticSite
