import Linkage.Text.Category

/-! What characters are where text is cut into what looks like characters, into words and into
sentences. -/
namespace Linkage

/-- The classes of characters at the cuts between what looks like characters. -/
def graphemeBreaks : List NamedSet := [
  ⟨["control", "cn"],
    .ofTable "AKBCBSdRbHNBcbMBguRBdaQBCCYHbXQdghJBjGMtuAQbzqUEhwXIbtkzLbGdSeYjGfiM"⟩,
  ⟨["cr"],
    .ofTable "NB"⟩,
  ⟨["extend", "ex"],
    .ofTable "
      bdOeIkPHkDbTBBBCBCBBcULbWVQBdXHCGCCBEbJBbEbBdNLcGJJBYEBJBDBFbRDcHJbQYBbGcDBBBEIEBDHKCbDBcG
      BBBCEIBJBKCbABCCcFBECECCDDBbECDBLCcFBEFBCEBUCWGBBcGBBCBEIBHDKCbEBcHBBBMBJBbOBDBcDBBDFDBEHC
      LCbDBcGBCCBBDDBEHCLCbCCcFCBBCEIBJBKCbDBcUBEBCDBBIBdDBCHMIdUBCJLHcVCbBBBBBBcDOBFBCFLBbKJBdY
      EBGBCCCZCEDQENBCCGBPBbbBDbkKEbCDbDCbECcMCBHIBCLJBbTDBBeNCbIBeODECJBGDiLCCBcGBBHBBBBCIGKCBb
      WbFbXEbWKEDbMJMCbGECGcEBBCDBBFcEICCfWDBNBHEBGBDChQcMuEBhNbHeoCDfLBdSbGvIGeBCbsqEEBKbGCdCCk
      MBDBEBZCFBfVCbASNBbMIZLBBbSDbWBCECCCBbKBcPGCCCCMBIBbVBbZBBDCCFCBBbQCIBjEBCBEBbdzSBbcJQQQoC
      CxHBiSBfTFcmGDBCFEbODEBgJCwBEcNFmFCdBEcSLbXEeTBcCPbPBCCKDbXECCHBcJDbKFBIcKBMCcAJBBIECBdRDC
      EGBCBgBBDIVCcFCBBBBMBJBOHDFcPBCGBBCBBDEDBBOCdHICDBBXBdDBCGBBCBBCBCjBBCEGCBCbBCdHICBBCeCBBB
      CIdXBBBCEBFjZJBCjLBKEEBfOECCEBbGKbOGCEIBJGCDbUNBCpQHBGBBdEWCHBCBCeSGDBBCBHBBcUCDBBBnJCLCcA
      FFDXBhxTBGPqyYMDDdsAFcHHboIBcLEdDBLCbdaXCgyZbUCXuWFDGIICHbEEfSDcyDcDEbYIBOBWFBPcaIHBRCHBCB
      FdWBgEHoLBcJEtOEjUCbcIHeFHebGFbsxyUdSeYjG"⟩,
  ⟨["l"],
    .ofTable "glKdScfoQbD"⟩,
  ⟨["lf"],
    .ofTable "KB"⟩,
  ⟨["lv"],
    .ofTable "
      cndOBbBBbBBbBBbBBbBBbBBbBBbBBbBBbBBbBBbBBbBBbBBbBBbBBbBBbBBbBBbBBbBBbBBbBBbBBbBBbBBbBBbBBb
      BBbBBbBBbBBbBBbBBbBBbBBbBBbBBbBBbBBbBBbBBbBBbBBbBBbBBbBBbBBbBBbBBbBBbBBbBBbBBbBBbBBbBBbBBb
      BBbBBbBBbBBbBBbBBbBBbBBbBBbBBbBBbBBbBBbBBbBBbBBbBBbBBbBBbBBbBBbBBbBBbBBbBBbBBbBBbBBbBBbBBb
      BBbBBbBBbBBbBBbBBbBBbBBbBBbBBbBBbBBbBBbBBbBBbBBbBBbBBbBBbBBbBBbBBbBBbBBbBBbBBbBBbBBbBBbBBb
      BBbBBbBBbBBbBBbBBbBBbBBbBBbBBbBBbBBbBBbBBbBBbBBbBBbBBbBBbBBbBBbBBbBBbBBbBBbBBbBBbBBbBBbBBb
      BBbBBbBBbBBbBBbBBbBBbBBbBBbBBbBBbBBbBBbBBbBBbBBbBBbBBbBBbBBbBBbBBbBBbBBbBBbBBbBBbBBbBBbBBb
      BBbBBbBBbBBbBBbBBbBBbBBbBBbBBbBBbBBbBBbBBbBBbBBbBBbBBbBBbBBbBBbBBbBBbBBbBBbBBbBBbBBbBBbBBb
      BBbBBbBBbBBbBBbBBbBBbBBbBBbBBbBBbBBbBBbBBbBBbBBbBBbBBbBBbBBbBBbBBbBBbBBbBBbBBbBBbBBbBBbBBb
      BBbBBbBBbBBbBBbBBbBBbBBbBBbBBbBBbBBbBBbBBbBBbBBbBBbBBbBBbBBbBBbBBbBBbBBbBBbBBbBBbBBbBBbBBb
      BBbBBbBBbBBbBBbBBbBBbBBbBBbBBbBBbBBbBBbBBbBBbBBbBBbBBbBBbBBbBBbBBbBBbBBbBBbBBbBBbBBbBBbBBb
      BBbBBbBBbBBbBBbBBbBBbBBbBBbBBbBBbBBbBBbBBbBBbBBbBBbBBbBBbBBbBBbBBbBBbBBbBBbBBbBBbBBbBBbBBb
      BBbBBbBBbBBbBBbBBbBBbBBbBBbBBbBBbBBbBBbBBbBBbBBbBBbBBbBBbBBbBBbBBbBBbBBbBBbBBbBBbBBbBBbBBb
      BBbBBbBBbBBbBBbBBbBBbBBbBBbBBbBBbBBbBBbBBbBBbBBbBBbBBbBBbBBbBBbBBbBBbBBbBBbBBbBBbBBbBBbBBb
      BBbBBbBBbBBbBBbBBbBBbBBbBBbBB"⟩,
  ⟨["lvt"],
    .ofTable "
      cndPbBBbBBbBBbBBbBBbBBbBBbBBbBBbBBbBBbBBbBBbBBbBBbBBbBBbBBbBBbBBbBBbBBbBBbBBbBBbBBbBBbBBbB
      BbBBbBBbBBbBBbBBbBBbBBbBBbBBbBBbBBbBBbBBbBBbBBbBBbBBbBBbBBbBBbBBbBBbBBbBBbBBbBBbBBbBBbBBbB
      BbBBbBBbBBbBBbBBbBBbBBbBBbBBbBBbBBbBBbBBbBBbBBbBBbBBbBBbBBbBBbBBbBBbBBbBBbBBbBBbBBbBBbBBbB
      BbBBbBBbBBbBBbBBbBBbBBbBBbBBbBBbBBbBBbBBbBBbBBbBBbBBbBBbBBbBBbBBbBBbBBbBBbBBbBBbBBbBBbBBbB
      BbBBbBBbBBbBBbBBbBBbBBbBBbBBbBBbBBbBBbBBbBBbBBbBBbBBbBBbBBbBBbBBbBBbBBbBBbBBbBBbBBbBBbBBbB
      BbBBbBBbBBbBBbBBbBBbBBbBBbBBbBBbBBbBBbBBbBBbBBbBBbBBbBBbBBbBBbBBbBBbBBbBBbBBbBBbBBbBBbBBbB
      BbBBbBBbBBbBBbBBbBBbBBbBBbBBbBBbBBbBBbBBbBBbBBbBBbBBbBBbBBbBBbBBbBBbBBbBBbBBbBBbBBbBBbBBbB
      BbBBbBBbBBbBBbBBbBBbBBbBBbBBbBBbBBbBBbBBbBBbBBbBBbBBbBBbBBbBBbBBbBBbBBbBBbBBbBBbBBbBBbBBbB
      BbBBbBBbBBbBBbBBbBBbBBbBBbBBbBBbBBbBBbBBbBBbBBbBBbBBbBBbBBbBBbBBbBBbBBbBBbBBbBBbBBbBBbBBbB
      BbBBbBBbBBbBBbBBbBBbBBbBBbBBbBBbBBbBBbBBbBBbBBbBBbBBbBBbBBbBBbBBbBBbBBbBBbBBbBBbBBbBBbBBbB
      BbBBbBBbBBbBBbBBbBBbBBbBBbBBbBBbBBbBBbBBbBBbBBbBBbBBbBBbBBbBBbBBbBBbBBbBBbBBbBBbBBbBBbBBbB
      BbBBbBBbBBbBBbBBbBBbBBbBBbBBbBBbBBbBBbBBbBBbBBbBBbBBbBBbBBbBBbBBbBBbBBbBBbBBbBBbBBbBBbBBbB
      BbBBbBBbBBbBBbBBbBBbBBbBBbBBbBBbBBbBBbBBbBBbBBbBBbBBbBBbBBbBBbBBbBBbBBbBBbBBbBBbBBbBBbBBbB
      BbBBbBBbBBbBBbBBbBBbBBbBBbBBbB"⟩,
  ⟨["prepend", "pp"],
    .ofTable "chCGiHBbXBoUCdCBbrNBdugKBPBjKCuFBcbLBBBjOBcVGbaYBrBB"⟩,
  ⟨["regionalindicator", "ri"],
    .ofTable "hgoKbA"⟩,
  ⟨["spacingmark", "sm"],
    .ofTable "
      dkTBcDBCDIEBCbYCcHCGCCCcCBcGDcOBcGDIBBCcBCcIBGCCCeKBBCDDBDcADcJEcJCcGBCBBCbUBOCcHCFDBDcBCc
      YCGHTCcLBeXBfICcLBgVBJCZCbSBcsVBHIBCnIECDECBGiQCcGBBBVGfPBcFEcMBbEBECcLBCDBBcBIICgPBVBcasH
      CCBdKCbYQfMBbWBbWCECCCeHCCCYBgBBCCFBjDCBCBCBBblxJBBBeXBbTDECeLBYCcHBbWDJBOBdPDDCgQDbFCcHBB
      ECCCCVCdHCPBBCdZDICDBeDCGBBCBBCBjECGECBeJDICBBeFBBCeGBHBkBDJBjOFBCHBBBfMDIEEBdGBbDCcKBpRBO
      BeCBHBCBiFFECBBnMCMBbWCICyzADfjGcD"⟩,
  ⟨["t"],
    .ofTable "grWdKcwxNbX"⟩,
  ⟨["v"],
    .ofTable "gpCcUcwzWXcerCBDE"⟩,
  ⟨["zwj"],
    .ofTable "mdPB"⟩]

/-- The classes of characters at the cuts between words. -/
def wordBreaks : List NamedSet := [
  ⟨["aletter", "le"],
    .ofTable "
      cNbAGbAbVBKBEBFXBbFBsMGbIeIFBCCEBBGBBDBBBUBdFBfJIgKBbMCEBBBbPBBeABbSbRbJCBdVBBPCHCKDCBQBBb
      EbDdLLBYbHJCEBFWEBJBDBXZHLFYBGRbQcGcCDBSBHKPQEICCCWBHBBDEDBQBNCBDOCKBIGECCWBHBCBCBCbFEBBTD
      QJBDBWBHBCBFDBSBPCXBLICCCWBHBCBFDBbECBDPBRBBGDDBEDCBBBCDCDDDMWBcAIBDBXBQDBbADCBCCbEBEIBDBX
      BKBFDBbFCBCPCRJBDBbPCBQBFDIDYGFSDYBJBBCHmBBcLIBbKbBFkPbMBBFBCbRBmVBECHBBBECbPBECbHBECHBBBE
      CPBcFBECcPbLQQdICGDxWCRBbAFcXDLHSNTOSONBDgTdLHFCbIBBFcSKbFiRXjEbVRIcCbENCKbSbAbKbPDKbKCLFb
      RCDbPEBGBCDBFhKcMkSCGCbMCGCIBBBBBBBbFCcBBHBBDDBHDECGENFDBHeMBNBQNdXBEBCKBBDFGBBBBBBEBLCEFF
      EBRbPbfHcAcrUiVGEDCMbMBBFBCcEHBQXJHBHBHBHBHBHBHBHdCBsBBcBChSbRBdQRbGbptObsVcPbUCkJDQKCUbVQ
      bFCdCYhQCCBBBIVQBDBEBXbDcAObYcKGDBBCLbCKXZbDHbVbCBbWbPXDBIfSLHDMGCGCGJHBHBcGGeLbDqnSMXEbXn
      gUHMFcEdUbHnZScMCcCbOMeMFBfFbKbAGbAcRbFDGCGCGCDbJMBbABTBCBPCObIeTcRcBkHbDDbXbVbGNbEFbMKbEC
      bKEIBFbQgCSbKEbKEbOIcAMLBPBHBCBLBPBHBCDcAMlZJWKIYGBbQBJcRGCBBbSBCDBCXKXJbFcNTBCKWKbAcScEGC
      cMBPEBDBbDbQbDDbDbJIBbCbBcCKWKTNSeGcVcDbZNbZNbKbMbCJXjQbQGCQDcHbDKBIWbQSbUVbBXMcBcFCCBNbTb
      GZbAbKbDBCBIbJDBMbWOEVBBBbJSBZTCcLHBBBEBPBKHbVbMICCCWBHBCBFDBSBMFbEKBBCBBbMBBZBBBbScBSEUDb
      EbWUCBBhCbVbPEbKbWUBcHbRNBmPbSeMcMbFICBCIBCBYPBBBdQICbNQBBBbCBKbOHBVBLbUTBScVhRbHbFJBbLRBb
      XbEeIHBCBbMVBZGBCBbGOBmPTPBBNBbIeUBdBbjMdYeHRhOdxKdTPbpGRGZfxRFwLkdDbEcpUvXHbFRdBRbESbWQEb
      FVFTqQbTiDcMeYcXFBcONcMCBBbcvKeDFNDJHKiwKdHBcTBCCBCCCEBMBBBHBcNBECIBHBbCBEBFBBDHBnCCZBZBbF
      BZBbFBZBbFBZBbFBZBIcsYbFGGkBcKfQbTKHQBmJbESbSsQbCiUbECBtBHBEBCBPBhPcHcQHBbuIEBbBBCBBCBBKBE
      BBBBGBEBBBBBBDBCBBCBBBBBBBBBBCBBCEBHBEBEBBBKBRFDBFBRyEbAGbAGbA"⟩,
  ⟨["cr"],
    .ofTable "NB"⟩,
  ⟨["doublequote", "dq"],
    .ofTable "bIB"⟩,
  ⟨["extend"],
    .ofTable "
      bdOeIkPHkDbTBBBCBCBBcULbWVQBdXHCGCCBEbJBbEbBdNLcGJJBYEBJBDBFbRDcHJbQYBbHcCDBSBHKCbDDcEBBHC
      CCDJBKCbABCDcEBBFECCDDBbECDBLDcEBBIBDBDUCWGBDcEBBHCCCDHDKCbEBcHFDDBEJBbOFcDBBHBDBEHCLCbDDc
      EBBHBDBEHCLCPBMEcDCBHBDBEJBKCbDDcSBEGBBBISCcJBCHMIdUBCJLHcVCbBBBBBBECbXUBCFLBbKJBdWUXEEDBD
      CHDENMBBKEbbBDbkKEbCDbDCbECcMbGJBbTDBBeNCbIBeOMEMiLFcFKBbDCBbWbFbXFbVRbMJMDbENcEObWUfWDBVE
      BGBCDhQcMuEBhNbHeoCDfLBdSbGvIGeBCbsqEEBKbGCdCCkMBDBEBXFEBdFCbYSbASNBbMIZNbSEbVObKBcPOMBICb
      TDbYBBDCCFCBBbPFFCjCIBCbdzSBbcJQQQoCCxHBiSBfTFcmGDBCFEbODEBgJCwBEcNFmFCdBEcSLbXEeSDcBPbPBC
      CKEbTLHBcJDbKOQCbSBMDbWOIEBCdOMGBCBgBMVEcDCBHCCCDJBKCCHDFcPJBBCBBEBFBBOCdESXBdDUjBHCJbBCdE
      ReCNdXPjWPjLGBCCEBBBCfLHCHDBbCKbOHBEIBJLbUQpPIBIdEWBOeSGDBBCBHBBcOFBCBFnJEJCBBbWHDFXBhxTBG
      PqyYSdsAFcHHboIBBcDHEdDBLCbdaXCgyZbUCXuWFDGIICHbEEfSDcyDcDEbYIBOBWFBPcaIHBRCHBCBFdWBgEHoLB
      cJEtOEjUCbcIHeFHebGFbsxyUdSeYjG"⟩,
  ⟨["extendnumlet", "ex"],
    .ofTable "dRBmbFBPCTBdgaOCYDjFB"⟩,
  ⟨["format", "fo"],
    .ofTable "gRBcaKGWBhKBbXBoUCdCBftJBdaTCbAFbXFBKdghJBjPDgiZBPBnkKQbzqUEhwXIbtkzMB"⟩,
  ⟨["hebrewletter", "hl"],
    .ofTable "cfGbBEEdovYBBKBNBFBBBCBCBK"⟩,
  ⟨["katakana", "ka"],
    .ofTable "sgNFdXCDdNBEjGQiAbVBdKczhEcEcouCEBHBCBBlBDbYBOE"⟩,
  ⟨["lf"],
    .ofTable "KB"⟩,
  ⟨["midletter", "ml"],
    .ofTable "cGBeUBbbRBsDBfSBjxYBdgbBBcNBhOB"⟩,
  ⟨["midnum", "mn"],
    .ofTable "bSBOBbgCBuCBfACdQBpFBjfFBdfzVBDBcHBDBhBBOB"⟩,
  ⟨["midnumlet", "mb"],
    .ofTable "bUBmcFCKBdgdPBgYBGB"⟩,
  ⟨["newline", "nl"],
    .ofTable "LCeQBlzMC"⟩,
  ⟨["numeric", "nu"],
    .ofTable "
      bWKciOKBBfCKhQKpWKeOKeOKeOKeOKeOKeOKeOKeOKeOKdSKeOKcSKkSKcSKctQKbMKlOKeYKgKKGKhAKdIKfEKGKc
      aeOKbaCKbMKhQKWKdIKpQKbfmCKccKKdfYKGKbeQKeYKcIKfOKkSKnEKeOKoKKdYKGUcYKqGKdYKzMKdIKjMKcSKqG
      KyyGKdmCKdIKfEKuOKbkdYKecQbYdnCKqGKtIKjNKbgVKhbAK"⟩,
  ⟨["regionalindicator", "ri"],
    .ofTable "hgoKbA"⟩,
  ⟨["singlequote", "sq"],
    .ofTable "bNB"⟩,
  ⟨["wsegspace"],
    .ofTable "bGBimHBdpNHBDdGBfxWB"⟩,
  ⟨["zwj"],
    .ofTable "mdPB"⟩]

/-- The classes of characters at the cuts between sentences. -/
def sentenceBreaks : List NamedSet := [
  ⟨["aterm", "at"],
    .ofTable "bUBmcRBdgdPBhFB"⟩,
  ⟨["close", "cl"],
    .ofTable "
      bIBEDbXBBBbDBBBbTBPBfmSEcuNCdpJIZCKCcCCOCyJEbDCbpGGHOdBCbFKpNWcLEbGCbnMOOCCKYBSIqLKCIBDczr
      QCiHCbCQCCQGgNCbXBBBbDBBBBCBCdpoSD"⟩,
  ⟨["cr"],
    .ofTable "NB"⟩,
  ⟨["extend", "ex"],
    .ofTable "
      bdOeIkPHkDbTBBBCBCBBcULbWVQBdXHCGCCBEbJBbEbBdNLcGJJBYEBJBDBFbRDcHJbQYBbHcCDBSBHKCbDDcEBBHC
      CCDJBKCbABCDcEBBFECCDDBbECDBLDcEBBIBDBDUCWGBDcEBBHCCCDHDKCbEBcHFDDBEJBbOFcDBBHBDBEHCLCbDDc
      EBBHBDBEHCLCPBMEcDCBHBDBEJBKCbDDcSBEGBBBISCcJBCHMIdUBCJLHcVCbBBBBBBECbXUBCFLBbKJBdWUXEEDBD
      CHDENMBBKEbbBDbkKEbCDbDCbECcMbGJBbTDBBeNCbIBeOMEMiLFcFKBbDCBbWbFbXFbVRbMJMDbENcEObWUfWDBVE
      BGBCDhQcMuEChMbHeoCDfLBdSbGvIGeBCbsqEEBKbGCdCCkMBDBEBXFEBdFCbYSbASNBbMIZNbSEbVObKBcPOMBICb
      TDbYBBDCCFCBBbPFFCjCIBCbdzSBbcJQQQoCCxHBiSBfTFcmGDBCFEbODEBgJCwBEcNFmFCdBEcSLbXEeSDcBPbPBC
      CKEbTLHBcJDbKOQCbSBMDbWOIEBCdOMGBCBgBMVEcDCBHCCCDJBKCCHDFcPJBBCBBEBFBBOCdESXBdDUjBHCJbBCdE
      ReCNdXPjWPjLGBCCEBBBCfLHCHDBbCKbOHBEIBJLbUQpPIBIdEWBOeSGDBBCBHBBcOFBCBFnJEJCBBbWHDFXBhxTBG
      PqyYSdsAFcHHboIBBcDHEdDBLCbdaXCgyZbUCXuWFDGIICHbEEfSDcyDcDEbYIBOBWFBPcaIHBRCHBCBFdWBgEHoLB
      cJEtOEjUCbcIHeFHbtcaFdSeYjG"⟩,
  ⟨["format", "fo"],
    .ofTable "gRBcaKGWBhKBbXBoUCdCBftJBdaQBCCbAFbXFBKdghJBjPDgiZBPBnkKQbzqUEhwXIbtkzMB"⟩,
  ⟨["lf"],
    .ofTable "KB"⟩,
  ⟨["lower", "lo"],
    .ofTable "
      dTbAbVBKBEBbKYBIBBBBBBBBBBBBBBBBBBBBBBBBBBBBBBBBBBBBBBBBBBBBBBBBBBBBBBBCBBBBBBBBBBBBBBBCBB
      BBBBBBBBBBBBBBBBBBBBBBBBBBBBBBBBBBBBBBBBBBBBCBBBBDCBBBCBDCEBCBDDCBCBBBBBCBBCBBCBDBBBCCCDGB
      CBCBBBBBBBBBBBBBBBBCBBBBBBBBBBBBBBBBBCCBBBDBBBBBBBBBBBBBBBBBBBBBBBBBBBBBBBBBBBBBBBBBBBBBBB
      BBBBBBBBBBBHCBCCBBEBBBBBBBBcRBbKHCbEFfKBBBDBCESBbBbJBCDDBBBBBBBBBBBBBBBBBBBBBBBFBBCBCCbZbW
      BBBBBBBBBBBBBBBBBBBBBBBBBBBBBBBBBBJBBBBBBBBBBBBBBBBBBBBBBBBBBBBBBBBBBBBBBBBBBBBBBBBBBBBBCB
      BBBBBBBBBBBCBBBBBBBBBBBBBBBBBBBBBBBBBBBBBBBBBBBBBBBBBBBBBBBBBBBBBBBBBBBBBBBBBBBBBBBBBBBBBB
      BBBBBBBBBBBBBBBBBBbWbPeiTBbdJGdfUJBBeNhKcNBBBBBBBBBBBBBBBBBBBBBBBBBBBBBBBBBBBBBBBBBBBBBBBB
      BBBBBBBBBBBBBBBBBBBBBBBBBBBBBBBBBBBBBBBBBBBBBBBBBBBBBBBBBBBBBBBBBBBBBBBBBBBBBBBBBBBBBBBBBB
      BBBBBBBBBBJBBBBBBBBBBBBBBBBBBBBBBBBBBBBBBBBBBBBBBBBBBBBBBBBBBBBBBBBBBBBBBBBBBBBBBBBBBBBBBB
      BBBBBBBBBBBBBBBBBBJIGKIIIIGKIIIIOCIIIIIIFBCGBDDBCIECCIIKDBCeRBNBQNeFBDCDBbBBEBEBCCIEEBbHQE
      BbgLbActQbWBBDCBBBBBBEBBCBIDBBBBBBBBBBBBBBBBBBBBBBBBBBBBBBBBBBBBBBBBBBBBBBBBBBBBBBBBBBBBBB
      BBBBBBBBBBBBBBBBBBBBBBBBBBBBBBBBBBBBCHBBBEBMbMBBFBbtwDBBBBBBBBBBBBBBBBBBBBBBBBBBBBBBBBBBBB
      BBBBBBBBBTBBBBBBBBBBBBBBBBBBBBBBBBBBDfDBBBBBBBBBBBBDBBBBBBBBBBBBBBBBBBBBBBBBBBBBBBBBBBBBBB
      BBBBBBBBBBBBBBBBBBBBBBBKBBBBCBBBBBBBBBEBBBCBBDBBBBBBBBBBBBBBBBBBBBFBFBBBBBBBBBBBBBBBEBBBCB
      DBBBBBBBBBBBWDBBBDbfPbRBOGdCbeaIHMFboZbAbvHbOfGbKfZLBPBHBCrJBCDBbQBJbxLbZeVWegObGbgjWbGbmm
      KbAbAHBSbAbAbAEBBBHBLbAbAbAbAbAbAbAbAbAbAbAbAbAbAbAbAbAbCbCZBGbAZBGbAZBGbAZBGbAZBGBBcsYKBU
      GGkBcKdhSbI"⟩,
  ⟨["numeric", "nu"],
    .ofTable "
      bWKciOKBCfBKhQKpWKeOKeOKeOKeOKeOKeOKeOKeOKeOKdSKeOKcSKkSKcSKctQKbMKlOKeYKgKKGKhAKdIKfEKGKc
      aeOKbaCKbMKhQKWKdIKpQKbfmCKccKKdfYKGKbeQKeYKcIKfOKkSKnEKeOKoKKdYKGUcYKqGKdYKzMKdIKjMKcSKqG
      KyyGKdmCKdIKfEKuOKbkdYKecQbYdnCKqGKtIKjNKbgVKhbAK"⟩,
  ⟨["oletter", "le"],
    .ofTable "
      rBBEEiABbKHGMbABBBfDBsQBeObBEFbSbRbJCBdVBBPCHCKDCBQBBbEbDdLLBYbHJCEBFWEBJBDBXZHLFYBGRbQcGc
      CDBSBHKPQEICCCWBHBBDEDBQBNCBDOCKBIGECCWBHBCBCBCbFEBBTDQJBDBWBHBCBFDBSBPCXBLICCCWBHBCBFDBbE
      CBDPBRBBGDDBEDCBBBCDCDDDMWBcAIBDBXBQDBbADCBCCbEBEIBDBXBKBFDBbFCBCPCRJBDBbPCBQBFDIDYGFSDYBJ
      BBCHcGbWBCMHcGCBBBFBYBBBKBCJBCFBBVEbGBcLIBbKbBFeLbRUBQGEEDBDCHDENMBcNbRCmUBECHBBBECbPBECbH
      BECHBBBECPBcFBECcPbLQeJxWCRBbAFcXDLHSNTOSONBDPcAbJBEBcPdLHFCbIBBFcSKbFbXbECFLbSEbAcCXJcBdE
      BdPbVRIcCbENCKbSbAbKbPDKbKSbRCDbPEBGBCDBbpQEcTDCEekTcEHBQXJHBHBHBHBHBHBHBHdCBsBDZJHFCFEdIG
      DBdMBEFbRBdQRbGbWQtSjtOcMbguFcPbUCkJDQKCcOBQBbGdCbNJeABGBdZBDHBDBEBXbDcAObYcKGDBBCLbCKXZbD
      HbVbCBQFBKKFBbPXDBIUXDBDbYBBDCCFCBBBYDCLHDMGCGCGJHBHfPbJbDqnSMXEbXmnCoCCeCcPBBKBNBFBBBCBCB
      eEbHnZScMCcCbOMeMFBfFeBcECbFDGCGCGCDbJMBbABTBCBPCObIeTcRcBkHbDDbXbVbGNbEFbMKbECbKEIBFeSdAd
      UbOIcAdOcAMlZJWKIZCeVGCBBbSBCDBCXKXJbFcNTBCKWKbAcScEGCcMBPEBDBbDbQbDDbDbJIBbCbBcCKWKTNSeGc
      VhBbKbMGbFBkMbQGCQDcHbDKBIWbQSbUVbBXMcBcFCCBNbTbGZbAbKbDBCBIbJDBMbWOEVBBBbJSBZTCcLHBBBEBPB
      KHbVbMICCCWBHBCBFDBSBMFbEKBBCBBbMBBZBBBbScBSEUDbEbWUCBBhCbVbPEbKbWUBcHbRNBcTbBbLHhDbSiDICB
      CIBCBYPBBBdQICbNQBBBbCBKbOHBVBLbUTBScVhRbHbFJBbLRBbXbEeIHBCBbMVBZGBCBbGOBmPTPBBNBbIeUBdBbj
      MdYeHRhOdxKdTPbpGRGZfxRFwLkdDbEcpUvXHbFRdBRbESbWQEbFVFTqQbTpNcXFBcONcMCBBbCjcAIbvQbPKnfREB
      HBCBlFPBbDDCBOEIpGdkUeDFNDJHKnbCBtHbTKHQBmJbESbSsQbCiUbECBtBHBEBCBPBhPfEBbuIEBbBBCBBCBBKBE
      BBBBGBEBBBBBBDBCBBCBBBBBBBBBBCBBCEBHBEBEBBBKBRFDBFBRgoAclfCbGgdUGiOCinQOlbLPxYdqWuWcfYhhZF
      gfG"⟩,
  ⟨["scontinue", "sc"],
    .ofTable "bSCMBbyOBgSCsWBgbXBFBdbECgaUBdaaWCBBbDCbDCDBCBKBgMCMBcVB"⟩,
  ⟨["sep", "se"],
    .ofTable "fDBlzMC"⟩,
  ⟨["sp", "sp"],
    .ofTable "JBBCTBeXBihJBdpNLbKBbVBfxWB"⟩,
  ⟨["sterm", "st"],
    .ofTable "
      bHBbDBcaBBfRDgYBbRDjMBcJBBBDClHCcpWCbeKBECbdTBhQChWBFBmCCnQEgGCKCCCbDDhFCcNCbkUCJDfgUBNBWC
      qNBbshWBkKCiTBDBoSCdICdRBfWCfRDfOCjPBbffMCgNBbDBcNBedWCbxDFbSEhHCeNEeXDeZCGBQCdKCBCeEBlMCe
      NCoJCFPeBCjPDtXBBBjRCdJCqECbaQCcWCbcmBCfDBcNCLBvHClKBbdoGBliMB"⟩,
  ⟨["upper", "up"],
    .ofTable "
      cNbAdXXBHbHBBBBBBBBBBBBBBBBBBBBBBBBBBBBBBBBBBBBBBBBBBBBBBBBBBBBBBBCBBBBBBBBBBBBBBBCBBBBBBB
      BBBBBBBBBBBBBBBBBBBBBBBBBBBBBBBBBBBBBBBCBBBBDCBBBCBDCEBCBDDCBCBBBBBCBBCBBCBDBBBCDBHCBCBCBB
      BBBBBBBBBBBBBBCBBBBBBBBBBBBBBBBBCCBBBDBBBBBBBBBBBBBBBBBBBBBBBBBBBBBBBBBBBBBBBBBBBBBBBBBBBB
      BBBBBBHCBCCBBEBBBBBBBBlDBBBDBIBGBBDBBBCBRBJbJBCDDBBBBBBBBBBBBBBBBBBBBBBBFBCBBCCbZbWBBBBBBB
      BBBBBBBBBBBBBBBBBBBBBBBBBBJBBBBBBBBBBBBBBBBBBBBBBBBBBBBBBBBBBBBBBBBBBBBBBBBBBBBBBCBBBBBBBB
      BBBBCBBBBBBBBBBBBBBBBBBBBBBBBBBBBBBBBBBBBBBBBBBBBBBBBBBBBBBBBBBBBBBBBBBBBBBBBBBBBBBBBBBBBB
      BBBBBBBBBBCbMehDbMBBFBbbUdIdgLBoKBBBBBBBBBBBBBBBBBBBBBBBBBBBBBBBBBBBBBBBBBBBBBBBBBBBBBBBBB
      BBBBBBBBBBBBBBBBBBBBBBBBBBBBBBBBBBBBBBBBBBBBBBBBBBBBBBBBBBBBBBBBBBBBBBBBBBBBBBBBBBBBBBBBBB
      BBJBBBBBBBBBBBBBBBBBBBBBBBBBBBBBBBBBBBBBBBBBBBBBBBBBBBBBBBBBBBBBBBBBBBBBBBBBBBBBBBBBBBBBBB
      BBBBBBBBBBJIIGKIIIIGLBBBBBBBIIYIIIIIIFLFLEMFLFkBBEBDDCDCBDFGBBBBBBECEKCFBbAQTBbfMbAcsUbWbW
      BBDCBBBBBBEBBCBIDBBBBBBBBBBBBBBBBBBBBBBBBBBBBBBBBBBBBBBBBBBBBBBBBBBBBBBBBBBBBBBBBBBBBBBBBB
      BBBBBBBBBBBBBBBBBBBBBBBBBIBBBEBbtyJBBBBBBBBBBBBBBBBBBBBBBBBBBBBBBBBBBBBBBBBBBBBBTBBBBBBBBB
      BBBBBBBBBBBBBBBBBBfFBBBBBBBBBBBBBDBBBBBBBBBBBBBBBBBBBBBBBBBBBBBBBBBBBBBBBBBBBBBBBBBBBBBBBB
      BBBBBKBBBBCBBBBBBBBEBBBCBBBDBBBBBBBBBBBBBBBBBBBBFBFBBBBBBBBBBBBBBBEBBBCDBFBBBBBBBYBbhaHbAb
      uZbOfGbKgALBPBHBCcqCbZgBWegObGbgjWbGbmmQbAbAbAbAbAbABBCCBCCCEBIbAbAbACBECIBHbBCBEBFBBDHbBb
      AbAbAbAbAbAbAbAbAbAbAbEZbHZbHZbHZbHZbHBgnLbIdbIbAGbAGbA"⟩]

end Linkage
