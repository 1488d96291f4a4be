import PreviewDeploy.Crypto.Sha256
import PreviewDeploy.File.Basic
import PreviewDeploy.Text.Bytes

/-!
# Fingerprints of file lists

The fingerprint of a list of files is the SHA-256 digest of `Fingerprint.bytes`: for each file
in turn its path and its contents, each followed by a zero byte.
-/

namespace PreviewDeploy

namespace Fingerprint

/-- What a list of files is digested as. -/
def bytes (files : List File) : List UInt8 :=
  files.flatMap fun f => utf8 f.path ++ 0 :: (utf8 f.contents ++ [0])

end Fingerprint

/-- The digest of a list of files, as 64 hexadecimal digits. -/
def fingerprint (files : List File) : String := hex (Sha256.digest (Fingerprint.bytes files))

end PreviewDeploy
