import Linkage.Text.CharSet

/-! Text between double quotes, as messages on the program itself show it. -/
namespace Linkage

/-- Characters that cannot be told from their looks: controls, blanks but for the space, characters
that format others or join the one before them, and code points that have no character. -/
def invisibleChars : CharSet := .ofTable "
    AbGdRbIMBwWeIICGEHBBBUBiQHgKBbMCbYCDbUBBBCBCBJbBEGRKLBBbUVQBdXIBGCCBEbGCBBbEbDdLLBObRJHDYEBJ
    BDBHPBZFBBLFbGQbQcFcDBBBEIEBDHKCbDBCBICCCWBHBBDEDBBCGCCCBBNCBDEYFBBGECCWBHBCBCBCEDYEBBHKCDBB
    MBBJBDBWBHBCBFDEIBBCDBPCEMHBICBICCCWBHBCBFDBCBGCCCPCBDESLBBGDDBEDCBBBCDCDDDMFBBCDDBDDBVVGDBI
    BDBXBQDBDETDBCCCEKHKBLBDBXBKBFDCCBBCXDBCEKBDOLBDBbPCBBCFDBDBCEDBKEbACCBSDYBJBBCHJCGHHKCDMbWB
    CLIINbLCBBBFBYBBBKBCJBCFBBJKCEbGYCbBBBBBBOBbKSBFBCFbXIBGBNbLbTEBGBCCCZCEDQENBCCGBPBbOBBFBCfN
    CiYBECHBBBECbPBECbHBECHBBBECPBcFBECcPFbDDbAGdICGCyQBbCDdLHSNTDCJSONBDPcACBHIBCLJDKGKGLFKGdLH
    FCbIBBFcSKbFEECDECBGHBDbQCFLbSEbAGLDcFCCDcEBBJBBCIGNKGKGOdIbWKEDIBbDJMCbGECGcEBBCDBBNbWICFPD
    cKFbRCLLBNBHEBGBDCBFhKcMkSCGCbMCGCIBBBBBBBbFCcBBPBOCGBTCDBJRYIbVRCCbBBNDbIcKfKEzQWLVcrSCoNDC
    FbTBBFBCcEHCPXJHBHBHBHBHBHBHBHbHdQbIbABdLMiGbAQBbPGQBdIEdXFbRBbZBbQBdIJbWBbriRDcDJnKUbVEBKbG
    CdCCGIiNURBDBEBZCFEKGcEIcQKMYNBbMIZLBMbEGbWBCECCCBNBLEHBZBbPGCCCLDBIBBCKCbGBbZBBDCCFCBBBYRCI
    LGCGCGJHBHBcIEeNBCBEDKGqnSMXEbXEdaUjmEoCCeCbMHMFFBBYBFBBBCBCBzAbGQQKWbJBTBEEFBfFEgDBbEDGCGCG
    CDDHBHNCCMBbABTBCBPCObIeTFDEbTDdKBNDBbVbTfBbDDbXQbBEbKJbEFbMKbEBbLEObQgCCKGbKEbKEbOIcALMBPBH
    BCBLBPBHBCDcAMlZJWKIYGBbQBJcRGCBBbSBCDBCXBcUIJbWTBCFbHDbBFbBbMcEEUCbVPEBDBbDKJHJHcMbGbLGMJcC
    DbDCbBFbAHEMHdCcVcDbZNbZHbQMKGbMIYICiAbFBbQDBCCQGIJbNbOIWLJWSEEbMbCUXJBBcCPHEbEBCCBMbXECCCBE
    OZHKJbKFBJSIbJBDLcAJBBIECBQBULSBbCDCEGBCcLHBBBEBPBLGbVBDNKICBICCCWBHBCBFDBBBBECCCCDBMHbCKBBC
    BBbMBBBCPBBCDBBDBCbNcEICDBBVBBBDbEbWBCGBBCBBCBCEIKgKbVBCGECBCbBbKbZICBBCELKGNTbRBBBCICGKGUbC
    bBDBBCEBJXhDbVJBCBdWdFMICBCIBCBYBFBCGEBDJKcSICbQIEBEbBBKbOGCEIJBGCDbUNBCJNcVHKdJBDBBBdKbIOKG
    JBbMOBBGKbDDbGZBHBCBcXHBCBbMVBJKGGBCBbLECBBBBHKGbSEKjMTCEJPBbKICDXdIBPbYNbjNdYeHBFLhOdxKdVNb
    pGRGZfxRFwLkdDbEMDDKcoSvXHbFBKEdDBKGbEHBKbWHPKKBHBVFTqQcGhQdNFZCZbScXFcELNcMEOFJkxYbPbGdTeLm
    wREBHBCBlFPBbDDCBOEIpGdkUeDFNDJHKCBCBfvKjTDqUGXPRdReMcIjMKbNCcIFDWCHbEEcJVcODBeSUMUMdJJZfFdH
    BcTBCCBCCCEBMBBBHBcNBECIBHBbCBEBFBBDHBnCClGCvQcDEbYIBOBHbrWbFGGkBcKfQbTKHCKECmIbESbSEKFBrWbC
    EKiGbECLEBhKbFBDBCBHCFJCiQHBEBCBPBhPCJbWcQHBEKECbeFcQcYcJhMEBbBBCBBCBBKBEBBBBGBEBBBBBBDBCBBC
    BBBBBBBBBBCBBCEBHBEBEBBBKBRFDBFBRcACkKbSEdWMPCPBPBbLKgScEbDNbSEJHCOGfYblXDRDNDiKGMEBPMEcEIKG
    bOIbECMECOJbNnGIOCNDLDcFBBEQCMEKHfRBdZbnPclfCbGgmOCioCClbLPxYdqWuWcfYhhZFmoObzljY"

private def escapedChar (c : Char) : String :=
  match c with
  | '\x00' => "\\0"
  | '\t' => "\\t"
  | '\n' => "\\n"
  | '\r' => "\\r"
  | '"' => "\\\""
  | '\\' => "\\\\"
  | _ =>
    if invisibleChars.contains c then
      "\\u\x7b" ++ String.ofList (Nat.toDigits 16 c.toNat) ++ "\x7d"
    else String.singleton c

/-- A text in quotes that leaves no doubt on what it holds. -/
def escaped (text : String) : String :=
  "\"" ++ String.join (text.toList.map escapedChar) ++ "\""

end Linkage
